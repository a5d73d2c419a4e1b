import TraceGate.Daemon.Serve
import TraceGate.Proofs.Daemon.Level
import TraceGate.Proofs.Reactor.Numbers

namespace TraceGate.Site

open Reactor

variable {s s' s'' : Site}

structure Extends (s s' : Site) : Prop where
  state : s'.state = { s.state with listeners := s'.state.listeners }
  keys : s.reactor.keys <+: s'.reactor.keys

theorem Extends.refl (s : Site) : s.Extends s := ⟨rfl, List.prefix_refl _⟩

theorem Extends.trans (first : s.Extends s') (second : s'.Extends s'') : s.Extends s'' := by
  refine ⟨?_, first.keys.trans second.keys⟩
  rw [second.state, first.state]

theorem openListener_extends (address : Net.Address) (s : Site) : s.Extends (s.openListener address).2 :=
  ⟨rfl, List.prefix_refl _⟩

theorem prefix_register (r : Reactor) (policy : KindSet) (kind : Kind) (receiver : Receiver) (wanted : Flags) :
    r.keys <+: (r.register policy kind receiver wanted).2.keys := by
  rcases register_keys r policy kind receiver wanted with ⟨-, same⟩ | ⟨-, same | more⟩
  · exact same ▸ List.prefix_refl _
  · exact same ▸ List.prefix_refl _
  · exact more ▸ List.prefix_append _ _

theorem ensureListener_extends (address : Net.Address) (s : Site) : s.Extends (s.ensureListener address).2 := by
  have opened := openListener_extends address s
  unfold Site.ensureListener
  split
  · split
    · split <;> rename_i eq <;> rw [eq] at opened
      · exact opened
      · rename_i e t
        refine opened.trans ⟨rfl, ?_⟩
        have assigned := fun id => (assign_keys t.reactor id e).1
        rw [react_eq]
        exact assigned _ ▸ List.prefix_refl _
    · exact .refl s
  · split <;> rename_i eq <;> rw [eq] at opened
    · exact opened
    · rename_i e t
      have joined := prefix_register t.reactor t.state.filter.allowed .clientConnect (.ofEndpoint e) Flags.input
      rw [react_eq]
      split <;> rename_i done <;> obtain ⟨-, rfl⟩ := Prod.mk.inj done
      · exact opened.trans ⟨rfl, joined⟩
      · exact opened.trans ⟨rfl, joined⟩

theorem ensureEach_extends (addresses : List Net.Address) (s : Site) : s.Extends (s.ensureEach addresses).2 := by
  induction addresses generalizing s with
  | nil => exact .refl s
  | cons address addresses ih =>
      have first := ensureListener_extends address s
      unfold Site.ensureEach
      split <;> rename_i eq <;> rw [eq] at first
      · exact first
      · exact first.trans (ih _)

theorem ensureListeners_extends (s : Site) : s.Extends s.ensureListeners.2 := by
  unfold Site.ensureListeners
  split
  · have forgotten : s.Extends s.forgetListeners := ⟨rfl, List.prefix_refl _⟩
    exact forgotten.trans (ensureEach_extends _ _)
  · exact .refl s

theorem applyLevel_cases (level : Nat) (s : Site) :
    (∃ e, s.state.filter.changeLevel level = .error e ∧ s.applyLevel level = (.error (.filter e), s)) ∨
    ∃ change filter, s.state.filter.changeLevel level = .ok (change, filter) ∧
      (∃ listeners exit, (s.applyLevel level).2.state = { s.state with filter, listeners, exit }) ∧
        s.reactor.keys <+: (s.applyLevel level).2.reactor.keys := by
  unfold Site.applyLevel
  cases changed : s.state.filter.changeLevel level with
  | error e => exact Or.inl ⟨e, rfl, rfl⟩
  | ok outcome =>
      obtain ⟨change, filter⟩ := outcome
      refine Or.inr ⟨change, filter, rfl, ?_⟩
      obtain ⟨state, keys⟩ := ensureListeners_extends (s.setFilter filter)
      dsimp only
      split <;> rename_i ensured <;> rw [ensured] at state keys
      · rename_i e t
        exact ⟨⟨t.state.listeners, true, congrArg (fun state : State => { state with exit := true }) state⟩, keys⟩
      · rename_i t
        have aligned : s.reactor.keys <+: (t.reactor.reconcile t.state.filter.allowed .all).2.keys := by
          rw [Reactor.reconcile, (checkAll_keys _ _ t.reactor).1]
          exact keys
        rw [react_eq]
        split <;> rename_i done <;> obtain ⟨-, rfl⟩ := Prod.mk.inj done
        · exact ⟨⟨t.state.listeners, s.state.exit, state⟩, aligned⟩
        · exact ⟨⟨t.state.listeners, s.state.exit, state⟩, aligned⟩

theorem prefix_applyLevel (level : Nat) (s : Site) : s.reactor.keys <+: (s.applyLevel level).2.reactor.keys := by
  rcases applyLevel_cases level s with ⟨e, -, same⟩ | ⟨_, _, -, -, keys⟩
  · exact same ▸ List.prefix_refl _
  · exact keys

def requested? (request : Request) : Option Nat :=
  if request.service.toNat = Service.setFilterLevel then requestedLevel? request.payload else none

theorem respond_level (request : Request) (s : Site) :
    (s.respond request).2 = s ∨ ∃ level, requested? request = some level ∧
      (s.respond request).2 = (s.applyLevel level).2 := by
  unfold Site.respond
  split
  · exact Or.inl rfl
  · split
    · unfold Site.serveControl requested?
      dsimp only
      split
      · cases requestedLevel? request.payload with
        | none => exact Or.inl rfl
        | some level =>
            refine Or.inr ⟨level, rfl, ?_⟩
            dsimp only
            split <;> rename_i applied <;> rw [applied]
      · split <;> exact Or.inl rfl
    · exact Or.inl rfl
    · exact Or.inl rfl

theorem serve_cases (request : Request) (s : Site) :
    ∃ t : Site, t.reactor = s.reactor ∧ t.state.filter = s.state.filter ∧
      ((s.serve request).2.reactor = t.reactor ∧ (s.serve request).2.state.filter = t.state.filter ∨
        ∃ level, requested? request = some level ∧ (s.serve request).2.reactor = (t.applyLevel level).2.reactor ∧
          (s.serve request).2.state.filter = (t.applyLevel level).2.state.filter) := by
  refine ⟨s.changeStats fun t => { t with controlRequests := t.controlRequests + 1 }, rfl, rfl, ?_⟩
  have whole : (s.serve request).2.reactor =
      ((s.changeStats fun t => { t with controlRequests := t.controlRequests + 1 }).respond request).2.reactor ∧
      (s.serve request).2.state.filter =
      ((s.changeStats fun t => { t with controlRequests := t.controlRequests + 1 }).respond request).2.state.filter := by
    unfold Site.serve
    dsimp only
    split <;> exact ⟨rfl, rfl⟩
  rw [whole.1, whole.2]
  rcases respond_level request (s.changeStats fun t => { t with controlRequests := t.controlRequests + 1 }) with
    same | ⟨level, asked, moved⟩
  · rw [same]
    exact Or.inl ⟨rfl, rfl⟩
  · rw [moved]
    exact Or.inr ⟨level, asked, rfl, rfl⟩

theorem prefix_serve (request : Request) (s : Site) : s.reactor.keys <+: (s.serve request).2.reactor.keys := by
  obtain ⟨t, reactor, -, ⟨same, -⟩ | ⟨level, -, moved, -⟩⟩ := serve_cases request s
  · exact (same.trans reactor) ▸ List.prefix_refl _
  · rw [moved, ← reactor]
    exact prefix_applyLevel level t

theorem serve_filter (request : Request) (s : Site) : (s.serve request).2.state.filter = s.state.filter ∨
    ∃ level change, requested? request = some level ∧
      s.state.filter.changeLevel level = .ok (change, (s.serve request).2.state.filter) := by
  obtain ⟨t, -, filter, ⟨-, same⟩ | ⟨level, asked, -, moved⟩⟩ := serve_cases request s
  · exact Or.inl (same.trans filter)
  · rw [moved, ← filter]
    rcases applyLevel_cases level t with ⟨e, -, refused⟩ | ⟨change, moved, changed, ⟨_, _, state⟩, -⟩
    · rw [refused]
      exact Or.inl rfl
    · rw [state]
      exact Or.inr ⟨level, change, asked, changed⟩

end TraceGate.Site
