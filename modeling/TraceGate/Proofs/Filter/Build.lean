import Mathlib.Data.List.Sort
import TraceGate.Filter.Build
import TraceGate.Proofs.Filter.ListText

namespace TraceGate.Filter

open Text

def IsFirst {α : Type} (name : α → String) (l : List α) (a : α) : Prop :=
  l.find? (fun b => name b = name a) = some a

instance {α : Type} [DecidableEq α] (name : α → String) (l : List α) (a : α) : Decidable (IsFirst name l a) :=
  inferInstanceAs (Decidable (l.find? (fun b => name b = name a) = some a))

/-- What is responsible for a level: the least that reaches it, or the greatest if none does. -/
structure Responsible {α : Type} (top : α → Int) (among : α → Prop) (level : Int) (a : α) : Prop where
  is : among a
  least : level ≤ top a → ∀ b, among b → level ≤ top b → top a ≤ top b
  greatest : top a < level → ∀ b, among b → top b ≤ top a

section

variable {α : Type} {name : α → String} {l : List α} {a b : α}

theorem isFirst_cons : IsFirst name (b :: l) a ↔ b = a ∨ name b ≠ name a ∧ IsFirst name l a := by
  rw [IsFirst, List.find?_cons]
  by_cases same : name b = name a
  · simp [same]
  · have apart : b ≠ a := fun eq => same (congrArg name eq)
    simp [same, apart, IsFirst]

theorem first_of_cons {n : String} {P : α → Prop} : (∃ a, IsFirst name (b :: l) a ∧ name a = n ∧ P a) ↔
    name b = n ∧ P b ∨ name b ≠ n ∧ ∃ a, IsFirst name l a ∧ name a = n ∧ P a := by
  simp only [isFirst_cons]
  constructor
  · rintro ⟨a, rfl | ⟨other, first⟩, rfl, holds⟩
    · exact Or.inl ⟨rfl, holds⟩
    · exact Or.inr ⟨other, a, first, rfl, holds⟩
  · rintro (⟨rfl, holds⟩ | ⟨other, a, first, rfl, holds⟩)
    · exact ⟨b, Or.inl rfl, rfl, holds⟩
    · exact ⟨a, Or.inr ⟨other, first⟩, rfl, holds⟩

theorem IsFirst.eq (first : IsFirst name l a) (other : IsFirst name l b) (same : name a = name b) : a = b := by
  rw [IsFirst, same, other] at first
  exact (Option.some.inj first).symm

theorem exists_isFirst (name : α → String) (filled : l ≠ []) : ∃ a, IsFirst name l a := by
  obtain ⟨b, rest, rfl⟩ := List.exists_cons_of_ne_nil filled
  exact ⟨b, isFirst_cons.2 (Or.inl rfl)⟩

theorem Responsible.top_eq {top : α → Int} {among : α → Prop} {level : Int} (first : Responsible top among level a)
    (second : Responsible top among level b) : top a = top b := by
  rcases Int.lt_or_le (top a) level with short | reaches
  · have below := first.greatest short b second.is
    have above := second.greatest (by omega) a first.is
    omega
  · rcases Int.lt_or_le (top b) level with short | reaches'
    · have above := second.greatest short a first.is
      omega
    · have below := first.least reaches b second.is reaches'
      have above := second.least reaches' a first.is reaches
      omega

end

theorem bind_eq_ok {ε α β : Type} {x : Except ε α} {f : α → Except ε β} {b : β} :
    x >>= f = .ok b ↔ ∃ a, x = .ok a ∧ f a = .ok b := by
  cases x <;> simp [bind, Except.bind]

theorem Injection.ofSection_ok {s : InjectionSection} {i : Injection} (ok : Injection.ofSection s = .ok i) :
    i.name = s.name ∧ i.app = String.ofList (trim s.app.toList) ∧ i.context = String.ofList (trim s.context.toList) ∧
      i.node = String.ofList (trim s.node.toList) ∧
      ∀ id, id ∈ i.services ↔ ∃ piece ∈ pieces ',' s.serviceIds.toList, Numeral.Denotes 10 (trim piece) id := by
  unfold Injection.ofSection at ok
  obtain ⟨-, -, ok⟩ := bind_eq_ok.1 ok
  obtain ⟨ids, read, ok⟩ := bind_eq_ok.1 ok
  split at ok
  · cases ok
  · cases ok
    refine ⟨rfl, rfl, rfl, rfl, fun id => ?_⟩
    rw [mem_ascending, ListText.mem_serviceIds read]

namespace Registry

variable {r r' : Registry} {i j : Injection} {name : String} {l : List InjectionSection}

theorem contains_eq_false_iff : r.contains name = false ↔ r.find? name = none := by
  rw [contains, Option.isSome_eq_false_iff, Option.isNone_iff_eq_none]

theorem find?_insert (free : r.contains i.name = false) :
    (r.insert i).find? name = if i.name = name then some i else r.find? name := by
  have placed : ∀ entries : List Injection, entries.find? (fun j => j.name == i.name) = none →
      (place i entries).find? (fun j => j.name == name) =
        if i.name = name then some i else entries.find? fun j => j.name == name := by
    intro entries free
    induction entries with
    | nil => by_cases same : i.name = name <;> simp [place, same]
    | cons j entries ih =>
        rw [List.find?_cons] at free
        split at free
        · cases free
        · rename_i other
          unfold place
          split
          · by_cases same : i.name = name <;> simp [same]
          · rw [List.find?_cons, List.find?_cons, ih free]
            by_cases same : i.name = name
            · rw [same] at other
              simp [same, other]
            · simp [same]
  rw [insert, free]
  exact placed r.entries (contains_eq_false_iff.1 free)

theorem find?_addSections (ok : addSections r l = .ok r') : r'.find? name = some i ↔
    r.find? name = some i ∨
      r.find? name = none ∧ ∃ s, IsFirst InjectionSection.name l s ∧ s.name = name ∧ Injection.ofSection s = .ok i := by
  induction l generalizing r with
  | nil =>
      cases ok
      simp [IsFirst]
  | cons s l ih =>
      unfold addSections at ok
      split at ok
      · rename_i taken
        rw [ih ok]
        refine or_congr_right (and_congr_right fun free => ?_)
        have other : s.name ≠ name := by
          rintro rfl
          rw [contains, free] at taken
          cases taken
        simp [first_of_cons, other]
      · rename_i free
        rw [Bool.not_eq_true] at free
        obtain ⟨j, built, ok⟩ := bind_eq_ok.1 ok
        have named := (Injection.ofSection_ok built).1
        rw [ih ok, find?_insert (named ▸ free), named, first_of_cons]
        by_cases same : s.name = name
        · subst same
          simp [contains_eq_false_iff.1 free, built]
        · simp [same]

end Registry

namespace Segment

def unplaced (s : Segment) : Segment := { s with levelMin := 0 }

structure Follows (registry : Registry) (s : FilterSection) (t : Segment) : Prop where
  clients : t.clients = ListText.clients s.clients
  controls : t.controls = ListText.controls s.controlMessages
  injections : t.injections = ListText.injections s.injections
  known : ∀ name ∈ t.injections.spelled, registry.contains name = true

theorem ofSection_ok {registry : Registry} {s : FilterSection} {t : Segment} (ok : ofSection registry s = .ok t) :
    t.Follows registry s ∧ t.name = s.name ∧ s.level = t.levelMax ∧ t.levelMax ≤ maxLevel ∧ t.unplaced = t := by
  unfold ofSection at ok
  obtain ⟨level, checked, ok⟩ := bind_eq_ok.1 ok
  obtain ⟨same, high⟩ := checkLevel_eq_ok_iff.1 checked
  dsimp only at ok
  split at ok
  · cases ok
  · rename_i known
    unfold ofLevel at ok
    rw [if_pos high] at ok
    cases ok
    refine ⟨⟨rfl, rfl, rfl, fun name mem => ?_⟩, rfl, same, high, rfl⟩
    simpa using List.find?_eq_none.1 known name mem

end Segment

namespace Chain

variable {registry : Registry} {c c' : Chain} {s t u : Segment} {l : List Segment}

abbrev Ends (s t : Segment) : Prop := s.levelMax ≤ t.levelMax

theorem map_place (s : Segment) (start : Nat) (l : List Segment) :
    (place s start l).map Segment.unplaced = (l.map Segment.unplaced).orderedInsert Ends s.unplaced := by
  induction l generalizing start with
  | nil => rfl
  | cons t l ih =>
      unfold place
      split
      · rename_i below
        rw [List.map_cons, ih, List.map_cons, List.orderedInsert_of_not_le]
        exact Nat.not_le.2 below
      · rename_i above
        rw [List.map_cons, List.map_cons, List.map_cons, List.orderedInsert_cons_of_le]
        · rfl
        · exact Nat.not_lt.1 above

def Ordered (c : Chain) : Prop := c.segments.Pairwise fun s t => s.levelMax < t.levelMax

theorem Ordered.insert (ordered : c.Ordered) {i : Nat} (ok : c.insert s = .ok (i, c')) :
    c'.Ordered ∧ ∀ t, t ∈ c'.segments.map Segment.unplaced ↔ t = s.unplaced ∨ t ∈ c.segments.map Segment.unplaced := by
  unfold Chain.insert at ok
  split at ok
  · cases ok
  · rename_i apart
    cases ok
    have perm := List.perm_orderedInsert Ends s.unplaced (c.segments.map Segment.unplaced)
    rw [← map_place s 0] at perm
    refine ⟨?_, fun t => by rw [perm.mem_iff, List.mem_cons]⟩
    have sorted := List.Pairwise.orderedInsert (r := Ends) s.unplaced (c.segments.map Segment.unplaced)
      (List.pairwise_map.2 (ordered.imp fun below => Nat.le_of_lt below))
    rw [← map_place s 0, List.pairwise_map] at sorted
    have distinct : ((place s 0 c.segments).map (·.levelMax)).Nodup := by
      have levels : ∀ l : List Segment, l.map (·.levelMax) = (l.map Segment.unplaced).map (·.levelMax) := by
        intro l
        rw [List.map_map]
        rfl
      rw [levels, (perm.map _).nodup_iff, List.map_cons, ← levels, List.nodup_cons]
      refine ⟨fun mem => apart ?_, List.pairwise_map.2 (ordered.imp fun below => Nat.ne_of_lt below)⟩
      obtain ⟨t, mem, same⟩ := List.mem_map.1 mem
      exact List.any_eq_true.2 ⟨t, mem, decide_eq_true same⟩
    exact (sorted.and (List.pairwise_map.1 distinct)).imp fun both => Nat.lt_of_le_of_ne both.1 both.2

def Counts (seen : List String) (l : List FilterSection) (s : FilterSection) : Prop :=
  IsFirst FilterSection.name l s ∧ s.name ∉ seen

section

variable {seen : List String} {l : List FilterSection} {s t : FilterSection}

theorem counts_cons_of_mem (known : s.name ∈ seen) : Counts seen (s :: l) t ↔ Counts seen l t := by
  refine and_congr_left fun new => ?_
  have other : s.name ≠ t.name := fun same => new (same ▸ known)
  have apart : s ≠ t := fun same => other (congrArg _ same)
  simp [isFirst_cons, other, apart]

theorem counts_cons_of_notMem (new : s.name ∉ seen) :
    Counts seen (s :: l) t ↔ s = t ∨ Counts (s.name :: seen) l t := by
  unfold Counts
  rw [isFirst_cons, List.mem_cons, not_or]
  constructor
  · rintro ⟨rfl | ⟨other, first⟩, unseen⟩
    · exact Or.inl rfl
    · exact Or.inr ⟨first, Ne.symm other, unseen⟩
  · rintro (rfl | ⟨first, other, unseen⟩)
    · exact ⟨Or.inl rfl, new⟩
    · exact ⟨Or.inr ⟨Ne.symm other, first⟩, unseen⟩

end

theorem addSections_ok {seen : List String} {l : List FilterSection} (ok : addSections registry seen c l = .ok c')
    (ordered : c.Ordered) : c'.Ordered ∧ (∀ s, Counts seen l s → ∃ t, Segment.ofSection registry s = .ok t) ∧
      ∀ t, t ∈ c'.segments.map Segment.unplaced ↔ t ∈ c.segments.map Segment.unplaced ∨
        ∃ s, Counts seen l s ∧ Segment.ofSection registry s = .ok t := by
  induction l generalizing seen c with
  | nil =>
      cases ok
      exact ⟨ordered, by simp [Counts, IsFirst], by simp [Counts, IsFirst]⟩
  | cons s l ih =>
      unfold addSections at ok
      split at ok
      · rename_i again
        have known : s.name ∈ seen := by simpa using again
        simp only [counts_cons_of_mem known]
        exact ih ok ordered
      · rename_i fresh
        have new : s.name ∉ seen := by simpa using fresh
        obtain ⟨segment, described, ok⟩ := bind_eq_ok.1 ok
        obtain ⟨⟨i, extended⟩, inserted, ok⟩ := bind_eq_ok.1 ok
        obtain ⟨ordered, added⟩ := ordered.insert inserted
        rw [(Segment.ofSection_ok described).2.2.2.2] at added
        obtain ⟨ordered, built, mem⟩ := ih ok ordered
        simp only [counts_cons_of_notMem new]
        refine ⟨ordered, ?_, fun t => ?_⟩
        · rintro t (rfl | counts)
          · exact ⟨segment, described⟩
          · exact built t counts
        · rw [mem, added]
          constructor
          · rintro ((rfl | old) | ⟨u, counts, described⟩)
            · exact Or.inr ⟨s, Or.inl rfl, described⟩
            · exact Or.inl old
            · exact Or.inr ⟨u, Or.inr counts, described⟩
          · rintro (old | ⟨u, rfl | counts, described'⟩)
            · exact Or.inl (Or.inr old)
            · rw [described] at described'
              cases described'
              exact Or.inl (Or.inl rfl)
            · exact Or.inr ⟨u, counts, described'⟩

theorem find?_closeSegments {level : Nat} (filled : l ≠ []) (ordered : Ordered ⟨l⟩) (high : level ≤ maxLevel) :
    ∃ t top, Responsible (fun s : Segment => (s.levelMax : Int)) (· ∈ l) level t ∧
      (closeSegments l).find? (fun s => level ≤ s.levelMax) = some { t with levelMax := top } := by
  induction l using closeSegments.induct with
  | case1 => exact absurd rfl filled
  | case2 s =>
      have alone : ∀ t ∈ [s], (t.levelMax : Int) = s.levelMax := by simp
      have responsible : Responsible (fun s : Segment => (s.levelMax : Int)) (· ∈ [s]) level s :=
        ⟨List.mem_singleton_self s, fun _ t mem _ => (alone t mem).ge, fun _ t mem => (alone t mem).le⟩
      unfold closeSegments
      split
      · exact ⟨s, maxLevel, responsible, List.find?_cons_of_pos (by simpa using high)⟩
      · rename_i top
        refine ⟨s, s.levelMax, responsible, List.find?_cons_of_pos ?_⟩
        simpa using high.trans (Nat.not_lt.1 top)
  | case3 s t l ih =>
      obtain ⟨above, ordered⟩ := List.pairwise_cons.1 ordered
      by_cases reached : level ≤ s.levelMax
      · refine ⟨s, s.levelMax, ⟨List.mem_cons_self, fun _ u mem _ => ?_, fun short => ?_⟩, ?_⟩
        · rcases List.mem_cons.1 mem with rfl | mem
          · exact le_rfl
          · exact Int.ofNat_le.2 (above u mem).le
        · exact absurd (Int.ofNat_lt.1 short) (Nat.not_lt.2 reached)
        · exact List.find?_cons_of_pos (by simpa using reached)
      · obtain ⟨u, top, responsible, found⟩ := ih (by simp) ordered
        refine ⟨u, top, ⟨List.mem_cons_of_mem _ responsible.is, fun reaches v mem reaches' => ?_, fun short v mem => ?_⟩, ?_⟩
        · rcases List.mem_cons.1 mem with rfl | mem
          · exact absurd (Int.ofNat_le.1 reaches') reached
          · exact responsible.least reaches v mem reaches'
        · rcases List.mem_cons.1 mem with rfl | mem
          · exact Int.ofNat_le.2 (above u responsible.is).le
          · exact responsible.greatest short v mem
        · rw [closeSegments, List.find?_cons_of_neg (by simpa using reached)]
          exact found

end Chain

end TraceGate.Filter
