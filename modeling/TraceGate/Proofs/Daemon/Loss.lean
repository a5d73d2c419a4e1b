import TraceGate.Proofs.Daemon.Control
import TraceGate.Proofs.Filter.Decision

namespace TraceGate

open Connection TraceGate.Filter

namespace Daemon

variable {settings : Settings} {filter : MessageFilter} {config : Config} {entries : List Entry} {d : Daemon}

structure Early (n : Nat) (s : Site) : Prop where
  configured : ∃ config level, MessageFilter.Stands config level s.state.filter
  positive : 0 < s.reactor.ids.next
  few : s.reactor.ids.next ≤ n
  keys : ∀ key ∈ s.reactor.keys, key.1 < s.reactor.ids.next ∧ key.2 = .appConnect

structure Heard (s : Site) : Prop where
  configured : ∃ config level, MessageFilter.Stands config level s.state.filter
  lone : ∃ c e, s.controls = [c] ∧ c.IsActive ∧ c.endpoint? = some e ∧ e.kind = .unixListener

theorem Early.opening (n : Nat) : Opening (fun _ => False) (Early n) where
  outside _ _ _ early := ⟨early.configured, early.positive, early.few, early.keys⟩
  register _ _ _ none _ := none.elim

theorem Early.react {n : Nat} {s : Site} (early : Early n s) (small : n < idBound) (receiver : Receiver) :
    Early (n + 1) (s.react (Reactor.register s.state.filter.allowed .appConnect receiver Flags.input)).2 := by
  obtain ⟨configured, positive, few, keys⟩ := early
  rw [Site.react_eq]
  rcases Reactor.register_keys s.reactor s.state.filter.allowed .appConnect receiver Flags.input with
    ⟨counter, same⟩ | ⟨counter, more⟩
  · exact ⟨configured, counter ▸ positive, counter ▸ few.trans (Nat.le_succ n), by rw [counter, same]; exact keys⟩
  · rw [Reactor.take_eq positive (few.trans_lt small)] at counter more
    refine ⟨configured, counter ▸ Nat.succ_pos _, counter ▸ Nat.succ_le_succ few, fun key mem => ?_⟩
    rw [counter]
    rcases more with same | same <;> rw [same] at mem
    · exact ⟨(keys key mem).1.trans (Nat.lt_succ_self _), (keys key mem).2⟩
    · rcases List.mem_append.1 mem with old | new
      · exact ⟨(keys key old).1.trans (Nat.lt_succ_self _), (keys key old).2⟩
      · rw [List.mem_singleton.1 new]
        exact ⟨Nat.lt_succ_self _, rfl⟩

theorem Early.hears {n : Nat} {s : Site} (early : Early n s) (small : n < idBound) {e : Endpoint}
    (sort : e.kind = .unixListener) {id : Nat}
    (done : (s.reactor.register s.state.filter.allowed .controlConnect (.ofEndpoint e) Flags.input).1 = .ok id) :
    Heard { s with reactor :=
      (s.reactor.register s.state.filter.allowed .controlConnect (.ofEndpoint e) Flags.input).2 } := by
  obtain ⟨⟨config, level, stands⟩, positive, few, keys⟩ := early
  have empty : s.reactor.kindred .controlConnect = [] := by
    refine List.filter_eq_nil_iff.2 fun c mem => ?_
    have other : c.kind = .appConnect := (keys c.key (List.mem_map_of_mem mem)).2
    simp [other]
  have fresh : s.reactor.connection? s.reactor.ids.take.1 = none := by
    rw [Reactor.take_eq positive (few.trans_lt small), Reactor.connection?, List.find?_eq_none]
    intro c mem
    have below : c.id < s.reactor.ids.next := (keys c.key (List.mem_map_of_mem mem)).1
    simp [below.ne]
  obtain ⟨c, lone, active, endpoint⟩ := Reactor.kindred_register_own empty fresh (stands.standing (by decide)) done
  exact ⟨⟨config, level, stands⟩, c, e, lone, active, endpoint, sort⟩

theorem Heard.opening : Opening (fun kind => kind ≠ .clientConnect ∧ kind ≠ .controlConnect) Heard where
  outside _ _ _ heard := ⟨heard.configured, heard.lone⟩
  register := by
    intro s e loose other kind meant heard
    obtain ⟨config, level, stands⟩ := heard.configured
    obtain ⟨c, e', lone, active, rest⟩ := heard.lone
    have awake : s.reactor.Awake .controlConnect := fun d mem => List.mem_singleton.1 (lone ▸ mem : d ∈ [c]) ▸ active
    have same := Reactor.kindred_register awake (stands.standing (by decide)) meant.2 (.ofEndpoint e) Flags.input
    exact ⟨⟨config, level, stands⟩, c, e', same.trans lone, active, rest⟩

theorem Kept.primary (kept : d.Kept Heard) : d.site.Primary True := by
  obtain ⟨c, e, lone, active, endpoint, sort⟩ := kept.lawful.lone
  refine ⟨⟨kept.reachable.coherent, kept.reachable.foremost, kept.lawful.configured, fun d mem => ?_⟩,
    fun _ => ⟨c, e, lone, endpoint, sort⟩, fun lost => absurd trivial lost⟩
  exact List.mem_singleton.1 (lone ▸ mem : d ∈ [c]) ▸ active

theorem leads_endpoints : Start.Leads (Kept (Early 1)) openEndpoints
    fun _ d => d.site.Primary True ∧ d.isShutDown = false := by
  have app (e : Endpoint) : Start.Leads (fun d => Fresh (Early 1) e d ∧ e.kind = .unixListener) (register .appConnect e)
      fun _ => Kept (Early 2) := by
    rintro d ⟨fresh, -⟩ _ _
    rw [register, run_discard]
    exact ⟨fresh.kept.reachable.goes (.register _ _ _ fresh.loose), fresh.kept.lawful.react (by decide) (.ofEndpoint e), fresh.kept.running⟩
  have control (e : Endpoint) : Start.Leads (fun d => Fresh (Early 2) e d ∧ e.kind = .unixListener)
      (register .controlConnect e) fun _ => Kept Heard := by
    rintro d ⟨fresh, sort⟩ _ ok
    rw [register, run_discard] at ok ⊢
    refine ⟨fresh.kept.reachable.goes (.register _ _ _ fresh.loose), ?_, fresh.kept.running⟩
    rw [Site.react_eq] at ok ⊢
    cases done : (d.site.reactor.register d.site.state.filter.allowed .controlConnect (.ofEndpoint e) Flags.input).1 with
    | ok id => exact fresh.kept.lawful.hears (by decide) sort done
    | error error =>
        rw [done] at ok
        cases ok
  rw [openEndpoints_eq]
  refine Start.Leads.get.bind fun d => ?_
  dsimp only
  refine (leads_openListener (Early.opening 1) _).bind fun e => (app e).bind fun _ => ?_
  refine (leads_openListener (Early.opening 2) _).bind fun e => (control e).bind fun _ => ?_
  refine leads_openRest Heard.opening (fun _ client control => ⟨client, control⟩) ?_
  intro d' kept _ _
  rw [run_discard]
  have heeds := kept.primary.grounded.applyLevel d.site.state.filter.defaultLevel
  exact ⟨kept.primary.of_eq heeds.grounded heeds.controls, kept.running⟩

theorem History.primary (history : History settings filter entries d) (built : MessageFilter.ofConfig config = .ok filter) :
    d.site.Primary (d.isShutDown = false ∧ ∀ entry ∈ entries, ∀ o ∈ entry.turns, ¬o.Severs) := by
  -- Only a turn that severs the control listener, or the shutdown, changes what the control listeners are.
  induction history with
  | @start host sound ok =>
      have early : Early 1 ⟨{ settings, filter }, { host }⟩ :=
        ⟨⟨config, _, MessageFilter.ofConfig_stands built⟩, Nat.one_pos, le_rfl, List.forall_mem_nil _⟩
      obtain ⟨primary, running⟩ := start_leads leads_endpoints (.begun sound early) ok
      exact primary.congr (iff_of_true ⟨running, List.forall_mem_nil _⟩ trivial)
  | runOnce before wait ih =>
      refine (ih.round wait).congr ?_
      rw [List.forall_mem_cons, and_assoc, and_comm (a := ∀ o ∈ _, _)]
      rfl
  | setLevel before level ih =>
      have heeds := ih.grounded.applyLevel level
      refine (ih.of_eq heeds.grounded heeds.controls).congr ?_
      rw [List.forall_mem_cons]
      exact and_congr_right fun _ => and_iff_right (List.forall_mem_nil _)
  | @beside entries d before site elapses ih =>
      obtain ⟨notices, exit, state⟩ := elapses.state
      have connections : site.reactor.connections = d.site.reactor.connections := by rw [elapses.reactor.rest]
      have same : site.reactor.kindred .controlConnect = d.site.controls := by
        rw [Reactor.kindred, connections]
        rfl
      have coherent : site.reactor.Coherent none := elapses.reactor.coherent ih.grounded.coherent rfl (List.forall_mem_nil _)
      exact ih.of_eq ⟨coherent, elapses.reactor.foremost ih.grounded.foremost, by rw [state]; exact ih.grounded.configured,
        ih.grounded.awake.of_eq same⟩ same
  | @shutdown entries d before ih =>
      have kept := History.reachable before
      have reachable := shutdown_reachable kept
      rcases shutdown_cases kept with ⟨same, -⟩ | ⟨ended, state, -, empty⟩
      · rw [same]
        exact ih
      · have none : d.shutdown.site.controls = [] := by
          rw [Site.controls, Reactor.kindred, empty]
          rfl
        refine ⟨⟨reachable.coherent, reachable.foremost, state ▸ ih.grounded.configured, ?_⟩, ?_, fun _ => none⟩
        · exact fun c mem => absurd (none ▸ mem : c ∈ []) List.not_mem_nil
        · rintro ⟨running, -⟩
          cases ended.symm.trans running

def Listens (d : Daemon) : Prop := ∃ c ∈ d.site.reactor.connections, c.kind = .controlConnect ∧ c.IsActive ∧
  ∃ e, c.endpoint? = some e ∧ d.site.reactor.host.IsOpen e ∧ e.kind = .unixListener

theorem listens_iff {whole : Prop} (primary : d.site.Primary whole) : d.Listens ↔ whole := by
  constructor
  · rintro ⟨c, mem, control, -, -⟩
    by_contra lost
    exact absurd (primary.gone lost ▸ Reactor.mem_kindred.2 ⟨mem, control⟩ : c ∈ []) List.not_mem_nil
  · intro holds
    obtain ⟨c, e, alone, endpoint, sort⟩ := primary.here holds
    have here : c ∈ d.site.controls := alone ▸ List.mem_singleton_self c
    obtain ⟨mem, control⟩ := Reactor.mem_kindred.1 here
    have isOpen := primary.grounded.coherent.books.isOpen e
      (List.mem_append_left _ (List.mem_filterMap.2 ⟨c, mem, endpoint⟩))
    exact ⟨c, mem, control, primary.grounded.awake c here, e, endpoint, isOpen, sort⟩

/-- The control listener is there until the daemon is shut down or a turn removes it for having failed, whatever the
levels, the peers and the host do. Such a turn leaves the state as it was, and so does not ask the daemon to end; only
an accept that fails does. -/
theorem History.control_listens (history : History settings filter entries d) (built : MessageFilter.ofConfig config = .ok filter) :
    (d.Listens ↔ d.isShutDown = false ∧ ∀ entry ∈ entries, ∀ o ∈ entry.turns, ¬o.Severs) ∧
      ∀ entry ∈ entries, ∀ o ∈ entry.turns,
        (o.Severs → (o.outcome Handlers.ofKind).1 = .ok 0 ∧ (o.outcome Handlers.ofKind).2.2 = o.state ∧
          ∀ c ∈ (o.outcome Handlers.ofKind).2.1.connections, c.kind ≠ .controlConnect) ∧
        ∀ c receiver, o.call? = some (c, receiver) → c.kind = .controlConnect →
          (o.outcome Handlers.ofKind).1 ≠ .ok 1 → (o.outcome Handlers.ofKind).2.2.exit = true := by
  refine ⟨listens_iff (history.primary built), fun entry mem o among => ?_⟩
  obtain ⟨earlier, wait, rfl, among⟩ := entry.mem_turns among
  obtain ⟨entries', before⟩ := history.before mem
  obtain ⟨whole, primary⟩ := (before.primary built).occasion among
  exact ⟨primary.severed, fun c receiver called control => primary.failed called control⟩

end Daemon

namespace Severing

open Daemon

def config : Config where
  general := { name := "plain", defaultLevel := 10 }

def settings : Settings := { appSocket := "/dlt", controlSocket := "/ctrl" }

def filter : MessageFilter := (MessageFilter.ofConfig config).toOption.get (by decide +kernel)

def started : Daemon := (Daemon.start settings filter {}).2

def wait : Wait := Round.wait [(4, Flags.failed)]

theorem runs_on : ¬(started.runOnce wait).2.Listens ∧ (started.runOnce wait).2.isShutDown = false ∧
    (started.runOnce wait).2.site.state.exit = false := by
  have sound : ({} : Host).Sound := ⟨by decide, by rintro e ⟨⟩⟩
  have built : MessageFilter.ofConfig config = .ok filter := Reactor.toOption_eq_some.1 (Option.some_get _).symm
  have history : History settings filter [.round started wait] (started.runOnce wait).2 :=
    .runOnce (.start sound (by decide +kernel)) wait
  have severed : ∃ o ∈ started.turns wait, o.IsFailure ∧
      (o.sighting.target? o.reactor).any fun c => c.kind = .controlConnect := by decide +kernel
  obtain ⟨o, among, failure, target⟩ := severed
  obtain ⟨c, hit, control⟩ := (Option.any_eq_true _ _).1 target
  refine ⟨fun listens => ?_, by decide +kernel, by decide +kernel⟩
  have whole := ((History.control_listens history built).1.1 listens).2
  exact whole _ List.mem_cons_self o among ⟨failure, c, hit, by simpa using control⟩

end Severing

end TraceGate
