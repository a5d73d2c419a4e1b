import TraceGate.Proofs.Daemon.Moves
import TraceGate.Proofs.Daemon.Obedience
import TraceGate.Proofs.Filter.Decision
import TraceGate.Proofs.Reactor.Sparing

namespace TraceGate

open Connection TraceGate.Filter

/-- Active, and of a kind that is allowed at every level. -/
structure Connection.Steady (c : Connection) : Prop where
  active : c.IsActive
  standing : c.kind ∈ KindSet.standing
  known : c.fd.isSome

theorem Filter.MessageFilter.Stands.standing {config : Config} {level : Int} {f : MessageFilter}
    (stands : MessageFilter.Stands config level f) {kind : Kind} (standing : kind ∈ KindSet.standing) :
    kind ∈ f.allowed := by
  by_cases empty : config.filters = []
  · rw [MessageFilter.allowed, stands.segment_of_nil empty]
    exact standing
  · obtain ⟨s, -, follows⟩ := stands.rules empty
    rw [MessageFilter.allowed, follows.clients]
    exact ListText.mem_clients.2 (Or.inl standing)

namespace Site

variable {α : Type} {c : Connection} {e : Endpoint} {n : Nat} {w : Host.Wire} {s : Site}

def bare (s : Site) (n id : Nat) : Site := { s with reactor := s.reactor.bare n id }

structure Attends (c : Connection) (e : Endpoint) (n : Nat) (w : Host.Wire) (s : Site) : Prop where
  attached : s.reactor.Attached c e n w
  configured : ∃ config level, MessageFilter.Stands config level s.state.filter

/-- What is done comes to the same whether the client's own things are there or erased, and leaves it as it was. -/
def Spares (c : Connection) (e : Endpoint) (n : Nat) (w : Host.Wire) (s : Site) (act : Site → α × Site) : Prop :=
  act (s.bare n c.id) = ((act s).1, (act s).2.bare n c.id) ∧ (act s).2.Attends c e n w

theorem Attends.allowed (attends : s.Attends c e n w) (steady : c.Steady) : c.kind ∈ s.state.filter.allowed := by
  obtain ⟨config, level, stands⟩ := attends.configured
  exact stands.standing steady.standing

theorem Attends.react (attends : s.Attends c e n w) {f : Reactor → Except EventError α × Reactor}
    (spares : Reactor.Spares c e n w s.reactor f) :
    (s.bare n c.id).react f = ((s.react f).1, (s.react f).2.bare n c.id) ∧ (s.react f).2.Attends c e n w := by
  obtain ⟨same, after⟩ := spares
  refine ⟨?_, after, attends.configured⟩
  have reactor : (s.bare n c.id).reactor = s.reactor.bare n c.id := rfl
  rw [react_eq, react_eq, reactor, same]
  rfl

theorem Attends.openListener (attends : s.Attends c e n w) (address : Net.Address) :
    Spares c e n w s (Site.openListener address) ∧ ∀ e', (s.openListener address).1 = .ok e' → e' ≠ e := by
  obtain ⟨carries, other⟩ := attends.attached.carries.listenNetwork address
  have same := s.reactor.host.listenNetwork_blank n address
  have host : (s.bare n c.id).reactor.host = s.reactor.host.blank n := rfl
  unfold Spares Site.openListener
  rw [host, same]
  rcases outcome : s.reactor.host.listenNetwork address with ⟨answer, host⟩
  rw [outcome] at carries other
  refine ⟨⟨rfl, ⟨attends.attached.found, attends.attached.unshared, carries⟩, attends.configured⟩, fun e' ok => ?_⟩
  cases answer with
  | ok e => exact other e' (congrArg Except.ok (Except.ok.inj ok))
  | error error => cases ok

theorem Attends.ensureListener (attends : s.Attends c e n w) (steady : c.Steady) (address : Net.Address) :
    Spares c e n w s (Site.ensureListener address) := by
  have allowed := attends.allowed steady
  obtain ⟨⟨same, opened⟩, other⟩ := attends.openListener address
  have state : (s.bare n c.id).state = s.state := rfl
  have vacant (id : Nat) : (((s.bare n c.id).reactor.connection? id).any fun d => d.fd.isNone) =
      (s.reactor.connection? id).any fun d => d.fd.isNone := by
    change ((s.reactor.bare n c.id).connection? id).any _ = _
    rw [Reactor.connection?_bare]
    cases s.reactor.connection? id with
    | none => rfl
    | some d =>
        dsimp only [Option.map_some, Option.any_some]
        split <;> rfl
  rcases outcome : s.openListener address with ⟨answer, t⟩
  rw [outcome] at same opened other
  dsimp only at same opened other
  unfold Spares Site.ensureListener
  rw [state, same, outcome]
  split
  · rename_i id _ _
    rw [vacant]
    split
    · rename_i free
      -- An entry without a descriptor is not the client's, which has its own.
      have apart : id ≠ c.id := by
        rintro rfl
        rw [attends.attached.found] at free
        obtain ⟨fd, known⟩ := Option.isSome_iff_exists.1 steady.known
        simp [known] at free
      cases answer with
      | error error => exact ⟨rfl, opened⟩
      | ok e' => exact opened.react (opened.attached.assign apart (other e' rfl))
    · exact ⟨rfl, attends⟩
  · cases answer with
    | error error => exact ⟨rfl, opened⟩
    | ok e' =>
        have allowed := opened.allowed steady
        have apart : (Receiver.ofEndpoint e').endpoint ≠ some e := fun same => other e' rfl (Option.some.inj same)
        have registered := opened.attached.register steady.active allowed .clientConnect apart Flags.input
        obtain ⟨same, after⟩ := opened.react registered
        rcases joined : t.react (Reactor.register t.state.filter.allowed .clientConnect (.ofEndpoint e') Flags.input)
          with ⟨answer, u⟩
        rw [joined] at same after
        have state : (t.bare n c.id).state = t.state := rfl
        dsimp only
        rw [state, same, joined]
        cases answer with
        | error error => exact ⟨rfl, after⟩
        | ok id => exact ⟨rfl, after.attached, after.configured⟩

theorem Attends.ensureEach (attends : s.Attends c e n w) (steady : c.Steady) (addresses : List Net.Address) :
    Spares c e n w s (Site.ensureEach addresses) := by
  induction addresses generalizing s with
  | nil => exact ⟨rfl, attends⟩
  | cons address addresses ih =>
      obtain ⟨same, after⟩ := attends.ensureListener steady address
      rcases outcome : s.ensureListener address with ⟨answer, t⟩
      rw [outcome] at same after
      unfold Spares Site.ensureEach
      rw [same, outcome]
      cases answer with
      | error error => exact ⟨rfl, after⟩
      | ok => exact ih after

theorem forgetListeners_bare (s : Site) (n id : Nat) :
    (s.bare n id).forgetListeners = s.forgetListeners.bare n id := by
  have known (j : Nat) : ((s.reactor.bare n id).connection? j).isSome = (s.reactor.connection? j).isSome := by
    rw [Reactor.connection?_bare, Option.isSome_map]
  have same : (s.state.listeners.filter fun l => ((s.reactor.bare n id).connection? l.1).isSome) =
      s.state.listeners.filter fun l => (s.reactor.connection? l.1).isSome := by
    simp only [known]
  exact congrArg (fun listeners => ({ s.bare n id with state := { s.state with listeners } } : Site)) same

theorem Attends.ensureListeners (attends : s.Attends c e n w) (steady : c.Steady) :
    Spares c e n w s Site.ensureListeners := by
  have forgot : s.forgetListeners.Attends c e n w := ⟨attends.attached, attends.configured⟩
  have state : (s.bare n c.id).state = s.state := rfl
  unfold Spares Site.ensureListeners
  rw [state, forgetListeners_bare]
  split
  · exact forgot.ensureEach steady _
  · exact ⟨rfl, attends⟩

theorem Attends.applyLevel (attends : s.Attends c e n w) (steady : c.Steady) (level : Nat) :
    Spares c e n w s (Site.applyLevel level) := by
  have state : (s.bare n c.id).state = s.state := rfl
  unfold Spares Site.applyLevel
  rw [state]
  cases changed : s.state.filter.changeLevel level with
  | error error => exact ⟨rfl, attends⟩
  | ok outcome =>
      obtain ⟨change, filter⟩ := outcome
      obtain ⟨config, before, stands⟩ := attends.configured
      have moved : (s.setFilter filter).Attends c e n w := ⟨attends.attached, config, level, stands.changeLevel changed⟩
      obtain ⟨same, after⟩ := moved.ensureListeners steady
      rcases ensured : (s.setFilter filter).ensureListeners with ⟨answer, t⟩
      rw [ensured] at same after
      dsimp only at same after
      have start : (s.bare n c.id).setFilter filter = (s.setFilter filter).bare n c.id := rfl
      dsimp only
      rw [start, same, ensured]
      cases answer with
      | error error => exact ⟨rfl, after.attached, after.configured⟩
      | ok =>
          obtain ⟨same, last⟩ := after.react (after.attached.reconcile steady.active (after.allowed steady) .all)
          rcases aligned : t.react (Reactor.reconcile t.state.filter.allowed .all) with ⟨answer, u⟩
          rw [aligned] at same last
          have state : (t.bare n c.id).state = t.state := rfl
          dsimp only
          rw [state, same, aligned]
          cases answer with
          | error error => exact ⟨rfl, last⟩
          | ok => exact ⟨rfl, last⟩

theorem Attends.serveControl (attends : s.Attends c e n w) (steady : c.Steady) (request : Request) :
    Spares c e n w s (Site.serveControl request) := by
  have state : (s.bare n c.id).state = s.state := rfl
  unfold Spares Site.serveControl
  dsimp only
  rw [state]
  split
  · split
    · exact ⟨rfl, attends⟩
    · rename_i level _
      obtain ⟨same, after⟩ := attends.applyLevel steady level
      rcases applied : s.applyLevel level with ⟨answer, t⟩
      rw [applied] at same after
      rw [same]
      cases answer with
      | error error => exact ⟨rfl, after⟩
      | ok change => exact ⟨rfl, after⟩
  · split <;> exact ⟨rfl, attends⟩

theorem Attends.respond (attends : s.Attends c e n w) (steady : c.Steady) (request : Request) :
    Spares c e n w s (Site.respond request) := by
  have state : (s.bare n c.id).state = s.state := rfl
  have control := attends.serveControl steady request
  unfold Spares at control ⊢
  unfold Site.respond
  rw [state]
  split
  · exact ⟨rfl, attends⟩
  · split
    · exact control
    · exact ⟨rfl, attends⟩
    · exact ⟨rfl, attends⟩

theorem Attends.changeStats (attends : s.Attends c e n w) (f : Stats → Stats) :
    (s.changeStats f).Attends c e n w := ⟨attends.attached, attends.configured⟩

theorem Attends.serve (attends : s.Attends c e n w) (steady : c.Steady) (request : Request) :
    Spares c e n w s (Site.serve request) := by
  obtain ⟨same, after⟩ := (attends.changeStats fun t => { t with controlRequests := t.controlRequests + 1 }).respond
    steady request
  have counted (s : Site) (f : Stats → Stats) : (s.bare n c.id).changeStats f = (s.changeStats f).bare n c.id := rfl
  rcases answered : (s.changeStats fun t => { t with controlRequests := t.controlRequests + 1 }).respond request
    with ⟨response, t⟩
  rw [answered] at same after
  unfold Spares Site.serve
  dsimp only
  rw [counted, same, answered]
  dsimp only
  split
  · exact ⟨rfl, Attends.changeStats after fun t => { t with deniedRequests := t.deniedRequests + 1 }⟩
  · exact ⟨rfl, after⟩

def serveEach : List Request → Site → List Response × Site
  | [], s => ([], s)
  | request :: rest, s =>
    let (response, s) := s.serve request
    let (responses, s) := s.serveEach rest
    (response :: responses, s)

theorem serveEach_append (requests rest : List Request) (s : Site) : s.serveEach (requests ++ rest) =
    ((s.serveEach requests).1 ++ ((s.serveEach requests).2.serveEach rest).1,
      ((s.serveEach requests).2.serveEach rest).2) := by
  induction requests generalizing s with
  | nil => rfl
  | cons request requests ih =>
      rw [List.cons_append, serveEach]
      dsimp only
      rw [ih]
      rfl

theorem serveEach_snoc (requests : List Request) (request : Request) (s : Site) :
    (s.serveEach (requests ++ [request])).2 = ((s.serveEach requests).2.serve request).2 := by
  rw [serveEach_append]
  rfl

theorem prefix_serveEach (requests : List Request) (s : Site) :
    s.reactor.keys <+: (s.serveEach requests).2.reactor.keys := by
  induction requests generalizing s with
  | nil => exact List.prefix_refl _
  | cons request requests ih => exact (prefix_serve request s).trans (ih _)

theorem prefix_served {first requests : List Request} (among : first <+: requests) (s : Site) :
    (s.serveEach first).2.reactor.keys <+: (s.serveEach requests).2.reactor.keys := by
  obtain ⟨rest, rfl⟩ := among
  rw [serveEach_append]
  exact prefix_serveEach rest _

end Site

end TraceGate
