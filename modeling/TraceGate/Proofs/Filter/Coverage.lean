import TraceGate.Proofs.Filter.Acceptance
import TraceGate.Proofs.Filter.Bisection

namespace TraceGate.Filter

inductive Segment.Made : Segment → Prop
  | ofLevel {name : String} {level : Nat} {clients : KindSet} {controls : ServiceSet} {injections : Whitelist}
      {s : Segment} (ok : ofLevel name level clients controls injections = .ok s) : Made s
  | restrictive (name : String) : Made (.restrictive name)
  | permissive (name : String) : Made (.permissive name)

theorem Segment.Made.levelMax_le {s : Segment} (made : s.Made) : s.levelMax ≤ maxLevel := by
  cases made with
  | ofLevel ok =>
      unfold Segment.ofLevel at ok
      split at ok
      · rename_i high
        cases ok
        exact high
      · cases ok
  | restrictive name => exact le_rfl
  | permissive name => exact le_rfl

namespace Chain

variable {c c' : Chain} {s t : Segment} {l : List Segment} {start level i : Nat}

theorem Tiled.le_levelMin (tiled : Tiled start l) (mem : t ∈ l) : start ≤ t.levelMin ∧ t.levelMin ≤ t.levelMax := by
  induction l generalizing start with
  | nil => cases mem
  | cons s l ih =>
      obtain ⟨starts, filled, rest⟩ := tiled
      rcases List.mem_cons.1 mem with rfl | mem
      · exact ⟨starts.ge, filled⟩
      · have later := ih rest mem
        omega

theorem Tiled.ordered (tiled : Tiled start l) : Ordered ⟨l⟩ := by
  induction l generalizing start with
  | nil => exact .nil
  | cons s l ih =>
      apply List.pairwise_cons.2
      constructor
      · intro t mem
        have later := tiled.2.2.le_levelMin mem
        omega
      · exact ih tiled.2.2

theorem Tiled.isChain (tiled : Tiled start l) : l.IsChain fun s t => t.levelMin = s.levelMax + 1 := by
  induction l generalizing start with
  | nil => exact .nil
  | cons s l ih =>
      cases l with
      | nil => exact .singleton s
      | cons t l => exact .cons_cons tiled.2.2.1 (ih tiled.2.2)

theorem Tiled.findIdx?_iff (tiled : Tiled start l) (above : start ≤ level) :
    l.findIdx? (fun s => level ≤ s.levelMax) = some i ↔ ∃ s, l[i]? = some s ∧ level ∈ s := by
  induction l generalizing start i with
  | nil => simp
  | cons s l ih =>
      obtain ⟨starts, -, rest⟩ := tiled
      rw [List.findIdx?_cons]
      by_cases reaches : level ≤ s.levelMax
      · have inside : level ∈ s := ⟨starts ▸ above, reaches⟩
        cases i with
        | zero => simp [reaches, inside]
        | succ i =>
            have outside : ∀ t ∈ l, level ∉ t := by
              intro t mem inside
              have later := rest.le_levelMin mem
              have := inside.1
              omega
            simpa [reaches] using fun t at_i => outside t (List.mem_of_getElem? at_i)
      · have outside : level ∉ s := fun inside => reaches inside.2
        cases i with
        | zero => simp [reaches, outside]
        | succ i => simpa [reaches] using ih rest (by omega)

theorem check_eq_ok_iff : check start l = .ok () ↔ Tiled start l ∧ startAfter start l = maxLevel + 1 := by
  induction l generalizing start with
  | nil =>
      by_cases top : start = maxLevel + 1
      · simp [check, Tiled, startAfter, top]
      · simp [check, Tiled, startAfter, top]
  | cons s l ih =>
      have ends : startAfter start (s :: l) = startAfter (s.levelMax + 1) l := by
        cases l <;> simp [startAfter, List.getLast?_cons]
      rw [check, ends, Tiled]
      by_cases apart : s.levelMin ≠ start ∨ s.levelMax < s.levelMin
      · simp only [if_pos apart, reduceCtorEq, false_iff]
        omega
      · rw [if_neg apart, ih]
        simp only [not_or, not_not, Nat.not_lt] at apart
        rw [and_iff_right apart.1, and_iff_right apart.2]

theorem Tiled.validate_iff (tiled : Tiled 0 c.segments) :
    c.validate = .ok () ↔ ∃ s, c.segments.getLast? = some s ∧ s.levelMax = maxLevel := by
  rw [validate, check_eq_ok_iff, startAfter]
  cases c.segments.getLast? with
  | none => simp
  | some s => simp [tiled]

theorem Ordered.exists_last (ordered : c.Ordered) (mem : t ∈ c.segments) :
    ∃ s, c.segments.getLast? = some s ∧ t.levelMax ≤ s.levelMax := by
  obtain ⟨s, last⟩ := Option.isSome_iff_exists.1 (List.getLast?_isSome.2 (List.ne_nil_of_mem mem))
  obtain ⟨before, split⟩ := List.getLast?_eq_some_iff.1 last
  refine ⟨s, last, ?_⟩
  rw [Ordered, split, List.pairwise_append] at ordered
  rw [split, List.mem_append, List.mem_singleton] at mem
  rcases mem with earlier | rfl
  · exact (ordered.2.2 t earlier s (List.mem_singleton_self s)).le
  · exact le_rfl

theorem Ordered.find?_eq_none_iff (ordered : c.Ordered) :
    c.find? level = none ↔ ∀ s, c.segments.getLast? = some s → s.levelMax < level := by
  rw [find?, List.findIdx?_eq_none_iff]
  constructor
  · intro short s last
    simpa using short s (List.mem_of_getLast? last)
  · intro short t mem
    obtain ⟨s, last, highest⟩ := ordered.exists_last mem
    have below := short s last
    simp only [decide_eq_false_iff_not]
    omega

inductive Edit
  | insert (s : Segment) (made : s.Made)
  | close

def edit (c : Chain) : Edit → Except FilterError Chain
  | .insert s _ => (c.insert s).map Prod.snd
  | .close => .ok c.close

def edited (c : Chain) : List Edit → Chain
  | [] => c
  | e :: edits => ((c.edit e).toOption.getD c).edited edits

theorem edited_append (c : Chain) (edits later : List Edit) :
    c.edited (edits ++ later) = (c.edited edits).edited later := by
  induction edits generalizing c with
  | nil => rfl
  | cons e edits ih => exact ih _

structure Firm (c : Chain) : Prop where
  tiled : Tiled 0 c.segments
  high : ∀ s ∈ c.segments, s.levelMax ≤ maxLevel

theorem Firm.insert (firm : c.Firm) (made : s.Made) (ok : c.insert s = .ok (i, c')) : c'.Firm where
  tiled := firm.tiled.insert ok
  high t mem := by
    rcases (mem_levels_insert ok).1 (List.mem_map_of_mem mem) with new | old
    · exact new ▸ made.levelMax_le
    · obtain ⟨u, mem, same⟩ := List.mem_map.1 old
      exact same ▸ firm.high u mem

theorem Firm.check_close (firm : c.Firm) : check 0 c.close.segments = .ok () := by
  rw [close]
  by_cases empty : c.segments = []
  · rw [empty]
    rfl
  · exact firm.tiled.check_closeSegments empty firm.high

theorem Firm.close (firm : c.Firm) : c.close.Firm := by
  obtain ⟨tiled, top⟩ := check_eq_ok_iff.1 firm.check_close
  refine ⟨tiled, fun s mem => ?_⟩
  obtain ⟨t, last, highest⟩ := Ordered.exists_last (c := c.close) tiled.ordered mem
  rw [startAfter, last, Option.elim_some] at top
  omega

theorem Firm.edit (firm : c.Firm) (e : Edit) (ok : c.edit e = .ok c') : c'.Firm := by
  cases e with
  | insert s made =>
      rw [Chain.edit] at ok
      cases inserted : c.insert s with
      | error e =>
          rw [inserted] at ok
          cases ok
      | ok placed =>
          rw [inserted] at ok
          cases ok
          exact firm.insert made inserted
  | close =>
      cases ok
      exact firm.close

theorem Firm.edited (firm : c.Firm) (edits : List Edit) : (c.edited edits).Firm := by
  induction edits generalizing c with
  | nil => exact firm
  | cons e edits ih =>
      rw [Chain.edited]
      cases outcome : c.edit e with
      | error e => exact ih firm
      | ok c' => exact ih (firm.edit e outcome)

/-- The segments of the chain are a partition of the levels up to the last one, and the chain finds its way in it. -/
structure Covers (c : Chain) : Prop where
  ascending : c.segments.Pairwise fun s t => s.levelMax < t.levelMax
  high : ∀ s ∈ c.segments, s.levelMax ≤ maxLevel
  filled : ∀ s ∈ c.segments, s.levelMin ≤ s.levelMax
  starts : ∀ s, c.segments.head? = some s → s.levelMin = 0
  follows : c.segments.IsChain fun s t => t.levelMin = s.levelMax + 1
  found : ∀ (level i : Nat), c.find? level = some i ↔ ∃ s, c.segments[i]? = some s ∧ level ∈ s
  unique : ∀ (level i j : Nat) (s t : Segment), c.segments[i]? = some s → c.segments[j]? = some t →
    level ∈ s → level ∈ t → i = j
  beyond : ∀ level, c.find? level = none ↔ ∀ s, c.segments.getLast? = some s → s.levelMax < level
  valid : c.validate = .ok () ↔ ∃ s, c.segments.getLast? = some s ∧ s.levelMax = maxLevel
  halves : ∀ level, c.find? level = c.locate? level

/-- The chain takes the segment to the place that it names, unless its level is taken. -/
structure Admits (c : Chain) (s : Segment) : Prop where
  refused : (∃ t ∈ c.segments, t.levelMax = s.levelMax) ↔ ∃ e, c.insert s = .error e
  reason : ∀ e, c.insert s = .error e → e = .duplicateLevel s.levelMax
  placed : ∀ i c', c.insert s = .ok (i, c') →
    c'.segments.map Segment.unplaced = (c.segments.map Segment.unplaced).insertIdx i s.unplaced
  halves : c.insert s = c.insertFound s

theorem Firm.covers (firm : c.Firm) : c.Covers := by
  have found (level i : Nat) := firm.tiled.findIdx?_iff (i := i) (Nat.zero_le level)
  refine ⟨firm.tiled.ordered, firm.high, fun s mem => (firm.tiled.le_levelMin mem).2, fun s first => ?_,
    firm.tiled.isChain, found, ?_, fun _ => firm.tiled.ordered.find?_eq_none_iff, firm.tiled.validate_iff,
    firm.tiled.ordered.find?_eq_locate?⟩
  · obtain ⟨rest, split⟩ := List.head?_eq_some_iff.1 first
    have tiled := firm.tiled
    rw [split] at tiled
    exact tiled.1
  · intro level i j s t at_i at_j inside inside'
    have first := (found level i).2 ⟨s, at_i, inside⟩
    have second := (found level j).2 ⟨t, at_j, inside'⟩
    exact Option.some.inj (first.symm.trans second)

theorem map_place_eq_insertIdx (s : Segment) (start : Nat) (l : List Segment) :
    (place s start l).map Segment.unplaced =
      (l.map Segment.unplaced).insertIdx (l.takeWhile fun t => t.levelMax < s.levelMax).length s.unplaced := by
  induction l generalizing start with
  | nil => rfl
  | cons t l ih =>
      by_cases below : t.levelMax < s.levelMax
      · simp [place, below, ih]
      · simp [place, below, Segment.unplaced]

theorem Ordered.admits_segment (ordered : c.Ordered) (s : Segment) : c.Admits s := by
  have refused : (∃ t ∈ c.segments, t.levelMax = s.levelMax) ↔ ∃ e, c.insert s = .error e := by
    rw [← List.mem_map, ← not_iff_not, ← (insert_decided c s).ok_iff]
    cases c.insert s <;> simp
  refine ⟨refused, fun e failed => ?_, fun i c' ok => ?_, ordered.insert_eq_insertFound s⟩
  · unfold Chain.insert at failed
    split at failed <;> cases failed
    rfl
  · unfold Chain.insert at ok
    split at ok <;> cases ok
    exact map_place_eq_insertIdx s 0 c.segments

/-- Whatever edits have led to a chain, it covers the levels up to its last one. The next segment is refused exactly if
its level is taken, and then the chain stays as it is. Once the chain is closed it covers every level. -/
theorem edited_covers (edits : List Edit) :
    (edited {} edits).Covers ∧
    (∀ s (made : s.Made), (edited {} edits).Admits s ∧
      (∀ e, (edited {} edits).insert s = .error e → edited {} (edits ++ [.insert s made]) = edited {} edits) ∧
      ∀ i c, (edited {} edits).insert s = .ok (i, c) → edited {} (edits ++ [.insert s made]) = c) ∧
    edited {} (edits ++ [.close]) = (edited {} edits).close ∧ (edited {} (edits ++ [.close])).validate = .ok () := by
  have firm : (edited {} edits).Firm := Firm.edited (c := {}) ⟨trivial, by simp⟩ edits
  have closed : edited {} (edits ++ [.close]) = (edited {} edits).close := edited_append {} edits [.close]
  refine ⟨firm.covers, fun s made => ⟨firm.tiled.ordered.admits_segment s, fun e refused => ?_, fun i c ok => ?_⟩,
    closed, ?_⟩
  · rw [edited_append, edited, edit, refused]
    rfl
  · rw [edited_append, edited, edit, ok]
    rfl
  · rw [closed]
    exact firm.check_close

end Chain

end TraceGate.Filter
