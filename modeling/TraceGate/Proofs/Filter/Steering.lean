import TraceGate.Proofs.Filter.Coverage
import TraceGate.Proofs.Filter.Decision

namespace TraceGate.Filter

def Segment.LetsThrough (s : Segment) (registry : Registry) (app context node : String) (id : Nat) : Prop :=
  s.injections = .all ∨
    ∃ name ∈ s.injections.spelled, ∃ i, registry.find? name = some i ∧ i.Matches app context node id

namespace MessageFilter

variable {name : String} {chain : Chain} {registry : Registry} {start n : Nat} {backend : Option String}
  {levels : List Nat} {f g : MessageFilter}

structure Checked (f : MessageFilter) : Prop where
  tiled : Chain.Tiled 0 f.chain.segments
  top : Chain.startAfter 0 f.chain.segments = maxLevel + 1
  known : ∀ s ∈ f.chain.segments, ∀ name ∈ s.injections.spelled, f.registry.contains name = true
  found : f.chain.find? f.level = some f.current

theorem registered_of_unknownName? {l : List Segment} (clean : unknownName? registry l = none) :
    ∀ s ∈ l, ∀ name ∈ s.injections.spelled, registry.contains name = true := by
  induction l with
  | nil => simp
  | cons s l ih =>
      unfold unknownName? at clean
      split at clean
      · cases clean
      · rename_i known
        intro t mem
        rcases List.mem_cons.1 mem with rfl | mem
        · exact fun name spelled => by simpa using List.find?_eq_none.1 known name spelled
        · exact ih clean t mem

theorem ofChain_checked (ok : ofChain name chain registry start backend = .ok f) :
    f.Checked ∧ f.name = name ∧ f.backend = backend ∧ f.chain = chain ∧ f.registry = registry ∧
      f.defaultLevel = start ∧ f.level = start := by
  unfold ofChain at ok
  obtain ⟨⟨⟩, valid, ok⟩ := bind_eq_ok.1 ok
  obtain ⟨level, checked, ok⟩ := bind_eq_ok.1 ok
  obtain ⟨tiled, top⟩ := Chain.check_eq_ok_iff.1 valid
  obtain ⟨same, -⟩ := checkLevel_eq_ok_iff.1 checked
  obtain rfl : start = level := by omega
  split at ok
  · cases ok
  · rename_i current found
    split at ok
    · cases ok
    · rename_i clean
      cases ok
      exact ⟨⟨tiled, top, registered_of_unknownName? clean, found⟩, rfl, rfl, rfl, rfl, rfl, rfl⟩

theorem ofChain_start_le (ok : ofChain name chain registry start backend = .ok f) : start ≤ maxLevel := by
  unfold ofChain at ok
  obtain ⟨_, -, ok⟩ := bind_eq_ok.1 ok
  obtain ⟨level, checked, -⟩ := bind_eq_ok.1 ok
  obtain ⟨same, high⟩ := checkLevel_eq_ok_iff.1 checked
  omega

theorem Checked.exists_find? (checked : f.Checked) (high : n ≤ maxLevel) : ∃ i, f.chain.find? n = some i := by
  apply Option.ne_none_iff_exists'.1
  intro missed
  have short := checked.tiled.ordered.find?_eq_none_iff.1 missed
  have top := checked.top
  rw [Chain.startAfter] at top
  cases last : f.chain.segments.getLast? with
  | none => simp [last] at top
  | some s =>
      have below := short s last
      rw [last, Option.elim_some] at top
      omega

def turnTo (f : MessageFilter) (n : Nat) : MessageFilter :=
  match f.changeLevel n with
  | .ok (_, g) => g
  | .error _ => f

structure Turns (f : MessageFilter) (n : Nat) (change : LevelChange) : Prop where
  outcome : f.changeLevel n = .ok (change, f.turnTo n)
  level : change.level = n
  previousLevel : change.previousLevel = f.level
  previousMask : change.previousMask = f.allowed
  currentMask : change.currentMask = (f.turnTo n).allowed
  changedKinds : ∀ kind, kind ∈ change.changedKinds ↔ ¬(kind ∈ f.allowed ↔ kind ∈ (f.turnTo n).allowed)
  segmentChanged : change.segmentChanged = true ↔ (f.turnTo n).current ≠ f.current

structure SameMake (f g : MessageFilter) : Prop where
  name : g.name = f.name
  backend : g.backend = f.backend
  chain : g.chain = f.chain
  registry : g.registry = f.registry
  defaultLevel : g.defaultLevel = f.defaultLevel

theorem SameMake.trans {h : MessageFilter} (first : SameMake f g) (second : SameMake g h) : SameMake f h :=
  ⟨second.name.trans first.name, second.backend.trans first.backend, second.chain.trans first.chain,
    second.registry.trans first.registry, second.defaultLevel.trans first.defaultLevel⟩

theorem changeLevel_of_lt (f : MessageFilter) (beyond : maxLevel < n) :
    f.changeLevel n = .error (.levelOutOfRange n) ∧ f.turnTo n = f := by
  have refused : f.changeLevel n = .error (.levelOutOfRange n) := by
    unfold changeLevel checkLevel
    cases outcome : level? (n : Int) with
    | none => rfl
    | some m =>
        have within := level?_eq_some_iff.1 outcome
        omega
  rw [turnTo, refused]
  exact ⟨rfl, rfl⟩

theorem Checked.turns (checked : f.Checked) (high : n ≤ maxLevel) :
    (∃ change, f.Turns n change) ∧ (f.turnTo n).Checked ∧ SameMake f (f.turnTo n) ∧ (f.turnTo n).level = n := by
  obtain ⟨next, found⟩ := checked.exists_find? high
  have outcome : f.changeLevel n = .ok
      ({ previousLevel := f.level, level := n, previousMask := f.allowed,
         currentMask := (f.chain.segments.get ⟨next, Chain.lt_of_find?_eq_some found⟩).clients,
         segmentChanged := next != f.current },
       { f with level := n, current := next, current_lt := Chain.lt_of_find?_eq_some found }) := by
    unfold changeLevel
    rw [checkLevel_eq_ok_iff.2 ⟨rfl, high⟩]
    simp only [bind, Except.bind]
    split
    · rename_i missed
      rw [found] at missed
      cases missed
    · rename_i i found'
      obtain rfl := Option.some.inj (found.symm.trans found')
      rfl
  have turned : f.turnTo n = { f with level := n, current := next, current_lt := Chain.lt_of_find?_eq_some found } := by
    rw [turnTo, outcome]
  rw [← turned] at outcome
  refine ⟨⟨_, outcome, rfl, rfl, rfl, ?_, fun kind => ?_, ?_⟩, ?_, ?_, ?_⟩
  · rw [turned]
    rfl
  · rw [LevelChange.changedKinds, KindSet.mem_symmDiff, turned]
    rfl
  · simp [turned]
  · rw [turned]
    exact ⟨checked.tiled, checked.top, checked.known, found⟩
  · rw [turned]
    exact ⟨rfl, rfl, rfl, rfl, rfl⟩
  · rw [turned]

def lastLevel : (start : Nat) → List Nat → Nat
  | start, [] => start
  | start, n :: levels => lastLevel (if n ≤ maxLevel then n else start) levels

theorem Checked.turnTo (checked : f.Checked) (n : Nat) :
    (f.turnTo n).Checked ∧ SameMake f (f.turnTo n) ∧ (f.turnTo n).level = if n ≤ maxLevel then n else f.level := by
  by_cases high : n ≤ maxLevel
  · rw [if_pos high]
    exact (checked.turns high).2
  · rw [if_neg high, (changeLevel_of_lt f (Nat.lt_of_not_le high)).2]
    exact ⟨checked, ⟨rfl, rfl, rfl, rfl, rfl⟩, rfl⟩

theorem Checked.steer (checked : f.Checked) (levels : List Nat) :
    (levels.foldl MessageFilter.turnTo f).Checked ∧ SameMake f (levels.foldl MessageFilter.turnTo f) ∧
      (levels.foldl MessageFilter.turnTo f).level = lastLevel f.level levels := by
  induction levels generalizing f with
  | nil => exact ⟨checked, ⟨rfl, rfl, rfl, rfl, rfl⟩, rfl⟩
  | cons n levels ih =>
      obtain ⟨turned, same, level⟩ := checked.turnTo n
      obtain ⟨steered, same', level'⟩ := ih turned
      refine ⟨steered, same.trans same', ?_⟩
      rw [lastLevel, ← level]
      exact level'

/-- The filters that a program comes to have: constructed over a chain, and steered. -/
inductive Arises : MessageFilter → Prop
  | built {name : String} {chain : Chain} {registry : Registry} {start : Nat} {backend : Option String}
      {f : MessageFilter} (ok : ofChain name chain registry start backend = .ok f) : Arises f
  | turned {f : MessageFilter} (before : Arises f) (n : Nat) : Arises (f.turnTo n)

theorem Arises.checked (arises : f.Arises) : f.Checked ∧ f.defaultLevel ≤ maxLevel := by
  induction arises with
  | @built name chain registry start backend f ok =>
      obtain ⟨checked, -, -, -, -, default, -⟩ := ofChain_checked ok
      refine ⟨checked, ?_⟩
      rw [default]
      exact ofChain_start_le ok
  | turned before n ih =>
      obtain ⟨checked, default⟩ := ih
      obtain ⟨turned, same, -⟩ := checked.turnTo n
      exact ⟨turned, same.defaultLevel ▸ default⟩

theorem permissive_arises (ok : permissive name = .ok f) : f.Arises := by
  obtain ⟨_, -, ok⟩ := bind_eq_ok.1 ok
  exact .built ok

theorem ofConfig_arises {config : Config} (ok : ofConfig config = .ok f) : f.Arises := by
  obtain ⟨_, -, ok⟩ := bind_eq_ok.1 ok
  obtain ⟨_, -, ok⟩ := bind_eq_ok.1 ok
  obtain ⟨_, -, ok⟩ := bind_eq_ok.1 ok
  exact .built ok

structure Steady (f : MessageFilter) : Prop where
  segment : f.chain.segments[f.current]? = some f.segment
  holds : ∀ (i : Nat) (s : Segment), f.chain.segments[i]? = some s → (f.level ∈ s ↔ i = f.current)
  injections : ∀ app context node id, ∃ answer, f.injectionAllowed app context node id = .ok answer ∧
    (answer = true ↔ f.segment.LetsThrough f.registry app context node id)
  refused : ∀ n, (∃ e, f.changeLevel n = .error e) ↔ maxLevel < n
  unchanged : ∀ n e, f.changeLevel n = .error e → e = .levelOutOfRange n ∧ f.turnTo n = f
  accepted : ∀ n, n ≤ maxLevel → ∃ change, f.Turns n change

theorem Checked.injectionAllowed (checked : f.Checked) (app context node : String) (id : Nat) :
    ∃ answer, f.injectionAllowed app context node id = .ok answer ∧
      (answer = true ↔ f.segment.LetsThrough f.registry app context node id) := by
  have known := checked.known f.segment (List.get_mem _ _)
  rw [MessageFilter.injectionAllowed, Segment.LetsThrough]
  cases whitelist : f.segment.injections with
  | all => exact ⟨true, rfl, by simp⟩
  | nothing => exact ⟨false, rfl, by simp [Whitelist.spelled]⟩
  | names l =>
      rw [whitelist] at known
      simpa [Whitelist.spelled] using anyMatches_of_known known app context node id

theorem Checked.steady (checked : f.Checked) : f.Steady := by
  have found (i : Nat) : f.current = i ↔ ∃ s, f.chain.segments[i]? = some s ∧ f.level ∈ s := by
    rw [← checked.tiled.findIdx?_iff (Nat.zero_le f.level), ← Chain.find?, checked.found, Option.some.injEq]
  have refused (n : Nat) : (∃ e, f.changeLevel n = .error e) ↔ maxLevel < n := by
    constructor
    · rintro ⟨e, failed⟩
      by_contra within
      obtain ⟨⟨change, turns⟩, -⟩ := checked.turns (Nat.le_of_not_lt within)
      rw [turns.outcome] at failed
      cases failed
    · exact fun beyond => ⟨_, (changeLevel_of_lt f beyond).1⟩
  refine ⟨List.getElem?_eq_getElem f.current_lt, fun i s at_i => ?_, checked.injectionAllowed, refused,
    fun n e failed => ?_, fun n high => (checked.turns high).1⟩
  · rw [eq_comm, found i, at_i]
    simp
  · obtain ⟨outcome, same⟩ := changeLevel_of_lt f ((refused n).1 ⟨e, failed⟩)
    rw [outcome] at failed
    exact ⟨(Except.error.inj failed).symm, same⟩

/-- However a filter is steered, it stays steady and keeps what it was made of. Its level is the last one it was asked
for that exists. -/
theorem ofChain_steered (ok : ofChain name chain registry start backend = .ok f) (levels : List Nat)
    (g : MessageFilter) (steered : levels.foldl turnTo f = g) :
    g.Steady ∧ g.name = name ∧ g.backend = backend ∧ g.chain = chain ∧ g.registry = registry ∧ g.defaultLevel = start ∧
      g.level = lastLevel start levels := by
  obtain ⟨checked, rfl, rfl, rfl, rfl, rfl, begins⟩ := ofChain_checked ok
  obtain ⟨checked', same, level⟩ := checked.steer levels
  rw [steered] at checked' same level
  rw [begins] at level
  exact ⟨checked'.steady, same.name, same.backend, same.chain, same.registry, same.defaultLevel, level⟩

end MessageFilter

namespace Halving

open MessageFilter

def quiet : Segment := { Segment.restrictive "quiet" with levelMax := 49, injections := .names ["Diag"] }

def loud : Segment := { Segment.permissive "loud" with levelMin := 50 }

def diag : Injection := { name := "Diag", app := "APP", context := "CTX", node := "ECU", services := [4096] }

theorem quiet_steered : ∃ f g, ofChain "halving" ⟨[quiet, loud]⟩ ⟨[diag]⟩ 10 none = .ok f ∧
    [70, 101, 30].foldl turnTo f = g ∧ g.Steady ∧ g.level = 30 ∧ g.segment = quiet := by
  have built : (ofChain "halving" ⟨[quiet, loud]⟩ ⟨[diag]⟩ 10 none).isOk = true := by decide
  rcases outcome : ofChain "halving" ⟨[quiet, loud]⟩ ⟨[diag]⟩ 10 none with e | f
  · rw [outcome] at built
    cases built
  · obtain ⟨steady, -, -, same, -, -, level⟩ := ofChain_steered outcome [70, 101, 30] _ rfl
    refine ⟨f, _, rfl, rfl, steady, level, ?_⟩
    have first := (steady.holds 0 quiet (by rw [same]; rfl)).1 (by rw [level]; decide)
    have segment := steady.segment
    rw [same, ← first] at segment
    exact (Option.some.inj segment).symm

end Halving

end TraceGate.Filter
