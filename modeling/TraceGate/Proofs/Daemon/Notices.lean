import TraceGate.Proofs.Daemon.Course
import TraceGate.Proofs.Daemon.Repeating
import TraceGate.Proofs.Filter.Steering
import TraceGate.Proofs.Host.Addresses
import TraceGate.Proofs.Reactor.Lone

namespace TraceGate

open Connection TraceGate.Filter

namespace Host

variable {h h' : Host} {e : Endpoint} {n node place : Nat} {w : Line} {bytes : Bytes}

theorem attempt_ok {α : Type} {course : Host → Except SystemError α × Host} {a : α}
    (ok : h.attempt course = (.ok a, h')) : ∃ faults, course { h with faults } = (.ok a, h') := by
  unfold attempt at ok
  split at ok
  · rename_i none
    exact ⟨[], none ▸ ok⟩
  · exact ⟨_, ok⟩
  · cases ok

theorem unread_stream (stream : h.content? e = some (.stream n)) (line : h.line? n = some w) :
    h.unread e = w.inbound.length := by
  rw [unread, stream]
  dsimp only
  rw [line, Option.map_some, Option.getD_some]

theorem unread_file (file : h.content? e = some (.file node place)) :
    h.unread e = (h.storedBytes node).length - place := by
  rw [unread, file]

theorem unread_read (got : h.read e = (.ok bytes, h')) (filled : bytes ≠ []) : h'.unread e < h.unread e := by
  unfold read at got
  split at got
  · cases got
  · rename_i n stream
    obtain ⟨faults, got⟩ := attempt_ok got
    have stream : ({ h with faults } : Host).content? e = some (.stream n) := stream
    change _ < ({ h with faults } : Host).unread e
    generalize ({ h with faults } : Host) = k at got stream
    split at got
    · cases got
    · rename_i w line
      split at got
      · cases got
      · cases got
        have some := List.length_pos_iff.2 fun none : w.inbound = [] => filled (by rw [none, List.take_nil])
        have rest := line?_updateLine_self line fun w' => { w' with inbound := w.inbound.drop readLimit }
        have still : (k.updateLine n fun w' => { w' with inbound := w.inbound.drop readLimit }).content? e =
            Option.some (.stream n) := stream
        rw [unread_stream still rest, unread_stream stream line, List.length_drop, readLimit]
        omega
  · rename_i node place file
    obtain ⟨faults, got⟩ := attempt_ok got
    have file : ({ h with faults } : Host).content? e = some (.file node place) := file
    change _ < ({ h with faults } : Host).unread e
    generalize ({ h with faults } : Host) = k at got file
    cases got
    have some := List.length_pos_iff.2 filled
    have moved (place' : Nat) : (k.setContent e (.file node place')).content? e = Option.some (.file node place') := by
      rw [content?_setContent, if_pos rfl, file, Option.map_some]
    rw [unread_file (moved _), unread_file file]
    change (k.storedBytes node).length - _ < _
    rw [List.length_take, List.length_drop] at some ⊢
    omega
  · cases got

end Host

namespace Receiver

variable {r r' : Receiver} {h h' : Host} {n : Nat} {closed : Bool}

def unread (r : Receiver) (h : Host) : Nat := (r.endpoint.map h.unread).getD 0

theorem unread_fill (filled : r.fill h = (.ok (.data n), r', h')) : r'.unread h' < r.unread h := by
  unfold fill at filled
  split at filled
  · cases filled
  · rename_i e held
    split at filled <;> rename_i got <;> cases filled
    rename_i some
    rw [unread, unread, held]
    exact Host.unread_read got some

end Receiver

namespace Handlers

variable {receiver : Receiver} {host : Host} {closed : Bool}

end Handlers

namespace Site

variable {s s' : Site}

def queued (s : Site) : List Notice := s.state.notices.getD []

def emptied (s : Site) : Site := { s with state := { s.state with notices := s.state.notices.map fun _ => [] } }

theorem drain_all (queue : List Notice) (s : Site) (waiting : s.state.notices = some queue) :
    s.drain queue.length = (queue, s.emptied) := by
  induction queue generalizing s with
  | nil =>
      rw [emptied, waiting, Option.map_some, ← waiting]
      rfl
  | cons notice rest ih =>
      rw [List.length_cons, drain, dequeue, waiting]
      dsimp only
      rw [ih _ rfl, emptied, emptied, waiting]
      rfl

theorem takeNotices_eq (s : Site) : s.takeNotices = (s.queued, s.emptied) := by
  unfold Site.takeNotices queued
  cases waiting : s.state.notices with
  | some queue => exact drain_all queue s waiting
  | none =>
      have same : s.emptied = s := by rw [emptied, waiting, Option.map_none, ← waiting]
      rw [same]
      rfl

def Joins (s s' : Site) : Prop :=
  ∃ ids : List Nat, s'.reactor.keys = s.reactor.keys ++ ids.map fun id => (id, Kind.clientConnect)

theorem Joins.of_eq (same : s'.reactor.keys = s.reactor.keys) : s.Joins s' := ⟨[], by simp [same]⟩

theorem Joins.trans {s'' : Site} (first : s.Joins s') (second : s'.Joins s'') : s.Joins s'' := by
  obtain ⟨ids, keys⟩ := first
  obtain ⟨ids', keys'⟩ := second
  exact ⟨ids ++ ids', by rw [keys', keys, List.map_append, List.append_assoc]⟩

def Unrefused (s s' : Site) : Prop := s'.reactor.host.refusals ≤ s.reactor.host.refusals

theorem Unrefused.right {s'' : Site} (unrefused : s.Unrefused s'') (later : s.Later s') : s'.Unrefused s'' :=
  unrefused.trans later.refusals_le

theorem applyLevel_state (level : Nat) (s : Site) :
    ∃ listeners exit, (s.applyLevel level).2.state =
      { s.state with filter := s.state.filter.turnTo level, listeners, exit } := by
  rcases applyLevel_cases level s with ⟨e, refused, same⟩ | ⟨change, filter, turned, ⟨listeners, exit, state⟩, -⟩
  · rw [same, Filter.MessageFilter.turnTo, refused]
    exact ⟨s.state.listeners, s.state.exit, rfl⟩
  · rw [state, Filter.MessageFilter.turnTo, turned]
    exact ⟨listeners, exit, rfl⟩

end Site

namespace Site

variable {s : Site}

end Site

theorem Settings.loadFilter_arises {settings : Settings} {host : Host} {filter : MessageFilter}
    (ok : settings.loadFilter host = .ok filter) : filter.Arises := by
  unfold Settings.loadFilter at ok
  split at ok
  · exact MessageFilter.permissive_arises ok
  · obtain ⟨config, -, ok⟩ := bind_eq_ok.1 ok
    exact MessageFilter.ofConfig_arises ok

namespace Site

def Filtered (s : Site) : Prop := s.state.filter.Arises

variable {s : Site}

theorem Filtered.applyLevel (filtered : s.Filtered) (level : Nat) : (s.applyLevel level).2.Filtered := by
  obtain ⟨listeners, exit, state⟩ := applyLevel_state level s
  rw [Filtered, state]
  exact .turned filtered level

theorem filtered_law : Daemon.Law Filtered where
  outside _ _ _ filtered := filtered
  register _ _ _ _ filtered := filtered
  level level filtered := filtered.applyLevel level

theorem Filtered.move {kind : Kind} {id : Nat} {s t : Scene State} (move : Handlers.Move kind id s t)
    (filtered : (Handlers.siteOf s).Filtered) : (Handlers.siteOf t).Filtered := by
  cases move with
  | use | note | accept | unregister | forward => exact filtered
  | level n leads => exact filtered.applyLevel n

theorem filtered_keeping : Keeping fun _ s => s.Filtered where
  roused _ _ filtered := filtered
  removal _ _ filtered := filtered
  opening _ _ _ _ filtered := filtered
  deed deed _ filtered := filtered.move deed.move
  restore _ _ filtered := filtered

end Site

namespace Daemon

variable {settings : Settings} {filter : MessageFilter}

theorem History.filtered {entries : List Entry} {d : Daemon} (history : History settings filter entries d)
    (arises : filter.Arises) : d.site.Filtered := by
  induction history with
  | start sound ok => exact (start_kept Site.filtered_law sound arises ok).lawful
  | runOnce before wait ih => exact Site.filtered_keeping.round (History.reachable before).coherent ih wait
  | setLevel before level ih => exact ih.applyLevel level
  | beside before elapses ih =>
      obtain ⟨notices, exit, state⟩ := elapses.state
      rwa [Site.Filtered, state]
  | shutdown before ih =>
      rcases shutdown_cases (History.reachable before) with ⟨same, -⟩ | ⟨-, state, -, -⟩
      · rwa [same]
      · rwa [Site.Filtered, state]

theorem Visited.filtered {running : Option Kind} {s : Site} (visited : Visited settings filter running s)
    (arises : filter.Arises) : s.Filtered := by
  obtain ⟨-, filtered⟩ := visited.keeps Site.filtered_keeping (fun move _ => Site.Filtered.move move) fun _ _ history =>
    history.filtered arises
  exact filtered

end Daemon

theorem Handlers.run_backend {s t : Scene State} {id : Nat} (read : drained id s = (.ok (), t)) :
    (backend id).run.run s = (((siteOf t).emptied.applyNotices (siteOf t).queued).1.mapError DaemonError.message,
      placed t ((siteOf t).emptied.applyNotices (siteOf t).queued).2) := by
  rw [backend_run, read]
  dsimp only
  rw [Site.takeNotices_eq]

namespace Reactor

variable {r : Reactor} {c : Connection} {receiver : Receiver} {closed : Bool} {state : State}

end Reactor

namespace Parting

def config : Config where
  general := { name := "parting", defaultLevel := 10 }
  filters := [{ name := "quiet", level := 50, clients := "Serial" }, { name := "open", level := 100, clients := "*" }]

def filter : MessageFilter := (MessageFilter.ofConfig config).toOption.get (by decide +kernel)

def settings : Settings where
  bindAddresses := [.loopback]

def linked : Except DaemonError (Notifier × Endpoint) × Site := Site.linkBackend ⟨{ settings, filter }, {}⟩

def link : Notifier × Endpoint := linked.1.toOption.get (by decide)

def host : Host := (linked.2.reactor.host.writeLine link.1.line [1, 1, 1]).2.closePeer link.1.line

def reactor : Reactor :=
  (Reactor.register .all .filterBackend (.ofEndpoint link.2) Flags.input { linked.2.reactor with host }).2

def state : State :=
  { linked.2.state with notices := some [.connected 30, .levelChanged 101, .disconnected, .levelChanged 70,
      .connected 4294967295] }

def line : Connection where
  id := 1
  kind := .filterBackend
  activity := .active
  wanted := Flags.input
  receiver := some (.ofEndpoint link.2)
  fd := some 3

end Parting

end TraceGate
