import TraceGate.Proofs.Daemon.History
import TraceGate.Proofs.Daemon.Round

namespace TraceGate

open Connection

namespace Site

variable {s s' : Site}

theorem Lawful.grow (lawful : s.Lawful) {host : Host} (grows : Host.Grows s.reactor.host host)
    (notices : Option (List Notice)) (exit : Bool) :
    Lawful ⟨{ s.state with notices, exit }, { s.reactor with host }⟩ := by
  intro last unrefused
  have before := lawful last (Nat.le_zero.1 (unrefused ▸ grows.refusals_le))
  obtain ⟨⟨orderly, listed, addresses, named⟩, active, closed⟩ := before.grow grows
  exact ⟨⟨orderly, listed, addresses, named⟩, active, closed⟩

theorem Lawful.ample (lawful : s.Lawful) (ample : s.Ample s') : s'.Lawful := by
  obtain ⟨notices, exit, state⟩ := ample.state
  obtain ⟨host, same⟩ : ∃ host, s' = ⟨{ s.state with notices, exit }, { s.reactor with host }⟩ := by
    refine ⟨s'.reactor.host, ?_⟩
    rw [← state]
    have reactor := ample.reactor.rest
    rw [ample.room] at reactor
    rw [← reactor]
  subst same
  intro last unrefused
  have governed := lawful last (Nat.le_zero.1 (unrefused ▸ ample.refusals_le))
  have coherent := ample.reactor.coherent governed.ordered.orderly.coherent rfl (List.forall_mem_nil _)
  obtain ⟨⟨⟨-, spacious, positive, numbered, regular, lender⟩, listed, addresses, named⟩, active, closed⟩ := governed
  exact ⟨⟨⟨coherent, spacious, positive, numbered, regular, lender⟩, listed, addresses, named⟩, active, closed⟩

end Site

namespace Daemon

theorem lawful_law : Law Site.Lawful where
  outside grows notices exit lawful := lawful.grow grows notices exit
  register := by
    intro s e loose other kind client lawful last unrefused
    have later : Custody (fun _ _ _ => True) s.reactor _ :=
      Custody.register s.reactor s.state.filter.allowed kind (.ofEndpoint e) Flags.input fun _ _ => trivial
    obtain ⟨governed, smooth⟩ := lawful.sooner later last unrefused
    exact (governed.register (later.ids_le.trans_lt last) loose other client).1
  level := by
    intro s level lawful last unrefused
    obtain ⟨governed, smooth⟩ := lawful.sooner (Site.applyLevel_later level s) last unrefused
    exact (governed.applyLevel (fun _ _ _ lent => by cases lent) level smooth).1

theorem lawful_empty {settings : Settings} {filter : Filter.MessageFilter} {host : Host} (sound : host.Sound) :
    Site.Lawful ⟨{ settings, filter }, { host }⟩ := by
  intro _ _
  refine ⟨⟨⟨Reactor.coherent_new sound {} none, rfl, Nat.one_pos, List.nodup_nil, ?_, ?_⟩, ?_, List.nodup_nil, ?_⟩, ?_, ?_⟩
  · rintro c ⟨⟩
  · rintro l ⟨⟩
  · rintro c ⟨⟩
  · rintro l ⟨⟩
  · rintro c ⟨⟩
  · rintro c ⟨⟩

theorem shutdown_lawful {d : Daemon} (lawful : d.site.Lawful) : d.shutdown.site.Lawful := by
  unfold Daemon.shutdown
  split
  · exact lawful
  · have cleaned : Site.Lawful ⟨d.site.state, d.site.reactor.cleanup⟩ := by
      intro last unrefused
      have later : Custody (fun _ _ _ => True) d.site.reactor d.site.reactor.cleanup := Custody.unregisterAll _ _
      obtain ⟨governed, -⟩ := lawful.sooner later last unrefused
      obtain ⟨orderly, sublist⟩ := governed.ordered.orderly.unregisterAll (d.site.reactor.connections.map (·.id))
      exact governed.of_sublist orderly later sublist
    have first := Host.grows_removeSocket d.site.reactor.cleanup.host d.site.state.settings.appSocket
    exact cleaned.grow (first.trans (Host.grows_removeSocket _ d.site.state.settings.controlSocket)) d.site.state.notices
      d.site.state.exit

variable {settings : Settings} {filter : Filter.MessageFilter} {entries : List Entry} {d : Daemon}

theorem Runs.lawful (runs : Runs Host.Sound Site.Ample settings filter entries d) : d.site.Lawful := by
  induction runs with
  | start sound ok => exact (start_kept lawful_law sound (lawful_empty sound) ok).lawful
  | runOnce _ wait ih => exact ih.round wait
  | setLevel _ level ih => exact lawful_law.level level ih
  | beside _ ample ih => exact ih.ample ample
  | shutdown _ ih => exact shutdown_lawful ih

/-- Exactly the connections of the allowed kinds are active, and while client listeners are forbidden no
connection has a listener on the network. The counter of connections is below the bound as long as fewer
than `2 ^ 32 - 1` were registered. -/
theorem Runs.active_iff_allowed (runs : Runs Host.Sound Site.Ample settings filter entries d)
    (last : d.site.reactor.ids.next < idBound) (unrefused : d.site.reactor.host.refusals = 0) :
    (∀ c ∈ d.site.reactor.connections, c.IsActive ↔ c.kind ∈ d.site.state.filter.allowed) ∧
      (.clientConnect ∉ d.site.state.filter.allowed → ∀ c ∈ d.site.reactor.connections, ∀ receiver e,
        c.receiver = some receiver → receiver.endpoint = some e → e.kind ≠ .tcpListener) := by
  have governed := runs.lawful last unrefused
  refine ⟨governed.active, fun forbidden c mem receiver e held endpoint network => ?_⟩
  have holds : c.endpoint? = some e := by rw [endpoint?_of_receiver held, endpoint]
  have listener := (governed.ordered.orderly.regular c mem).network e holds network
  have idle : ¬c.IsActive := fun active => forbidden (listener ▸ (governed.active c mem).1 active)
  have closed := governed.closed c mem listener idle
  rw [(governed.ordered.orderly.coherent.books.settled c mem).fd receiver held, Receiver.fd?, endpoint] at closed
  cases closed

end Daemon

namespace Lowering

open Daemon

def gated : Filter.MessageFilter where
  name := "gated"
  backend := none
  chain := ⟨[{ Filter.Segment.restrictive "quiet" with levelMax := 50 },
    { Filter.Segment.permissive "open" with levelMin := 51 }]⟩
  registry := {}
  defaultLevel := 100
  level := 100
  current := 1
  current_lt := by decide

def settings : Settings where
  appSocket := "/dlt"
  controlSocket := "/ctrl"
  bindAddresses := [.v4 127 0 0 1, .loopback]

def lowered : Daemon :=
  (((start settings gated {}).2.runOnce (Round.wait [(5, Flags.input)])).2.setLevel 50).2

theorem lowered_runs : ∃ entries, Runs Host.Sound Site.Ample settings gated entries lowered := by
  have sound : ({} : Host).Sound := ⟨by decide, by rintro e ⟨⟩⟩
  exact ⟨_, .setLevel (.runOnce (.start sound (by decide +kernel)) _) 50⟩

theorem listener_idle : .clientConnect ∉ lowered.site.state.filter.allowed ∧
    ∃ c ∈ lowered.site.reactor.connections, c.kind = .clientConnect ∧ ¬c.IsActive := by
  obtain ⟨entries, runs⟩ := lowered_runs
  have counted : lowered.site.reactor.ids.next < idBound := by decide +kernel
  have unrefused : lowered.site.reactor.host.refusals = 0 := by decide +kernel
  have forbidden : .clientConnect ∉ lowered.site.state.filter.allowed := by decide +kernel
  have present : ∃ c ∈ lowered.site.reactor.connections, c.kind = .clientConnect := by decide +kernel
  obtain ⟨c, mem, client⟩ := present
  refine ⟨forbidden, c, mem, client, fun active => forbidden ?_⟩
  rw [← client]
  exact ((Runs.active_iff_allowed runs counted unrefused).1 c mem).1 active

end Lowering

end TraceGate
