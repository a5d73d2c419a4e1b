import TraceGate.Proofs.Filter.Build

namespace TraceGate.Filter

/-- The first of `size` numbers from `low` on at which `p` fails, or the number behind them, provided that `p` holds up
to some number only. -/
def bisect (p : Nat → Bool) (low size : Nat) : Nat :=
  if size = 0 then low
  else if p (low + size / 2) then bisect p (low + size / 2 + 1) (size - size / 2 - 1)
  else bisect p low (size / 2)
termination_by size
decreasing_by all_goals omega

theorem bisect_eq {p : Nat → Bool} {low size k : Nat} (above : low ≤ k) (within : k ≤ low + size)
    (split : ∀ i, low ≤ i → i < low + size → (p i ↔ i < k)) : bisect p low size = k := by
  induction low, size using bisect.induct p with
  | case1 low =>
      rw [bisect, if_pos rfl]
      omega
  | case2 low size some holds ih =>
      have left := (split (low + size / 2) (by omega) (by omega)).1 holds
      rw [bisect, if_neg some, if_pos holds]
      exact ih (by omega) (by omega) fun i above within => split i (by omega) (by omega)
  | case3 low size some fails ih =>
      have right := mt (split (low + size / 2) (by omega) (by omega)).2 fails
      rw [bisect, if_neg some, if_neg fails]
      exact ih above (by omega) fun i above within => split i above (by omega)

section

variable {α : Type} {p : α → Bool} {l : List α}

theorem any_getElem?_iff (falling : l.Pairwise fun a b => p b → p a) {i : Nat} :
    l[i]?.any p ↔ i < (l.takeWhile p).length := by
  induction l generalizing i with
  | nil => simp
  | cons a l ih =>
      obtain ⟨first, falling⟩ := List.pairwise_cons.1 falling
      by_cases holds : p a
      · cases i with
        | zero => simp [holds]
        | succ i => simpa [holds] using ih falling
      · cases i with
        | zero => simp [holds]
        | succ i =>
            have fails : ∀ b, l[i]? = some b → p b = false := by
              intro b at_i
              simpa [holds] using first b (List.mem_of_getElem? at_i)
            cases at_i : l[i]? with
            | none => simp [holds, at_i]
            | some b => simp [holds, at_i, fails b at_i]

theorem findIdx?_eq_takeWhile : l.findIdx? (fun a => !p a) =
    if (l.takeWhile p).length < l.length then some (l.takeWhile p).length else none := by
  induction l with
  | nil => simp
  | cons a l ih =>
      rw [List.findIdx?_cons, ih]
      by_cases holds : p a
      · by_cases within : (l.takeWhile p).length < l.length
        · simp [holds, within]
        · simp [holds, within]
      · simp [holds]

theorem take_length_takeWhile : l.take (l.takeWhile p).length = l.takeWhile p :=
  (List.prefix_iff_eq_take.1 (List.takeWhile_prefix p)).symm

theorem drop_length_takeWhile : l.drop (l.takeWhile p).length = l.dropWhile p := by
  have rest : (l.takeWhile p ++ l.dropWhile p).drop (l.takeWhile p).length = l.dropWhile p := List.drop_left
  rwa [List.takeWhile_append_dropWhile] at rest

end

namespace Chain

variable {c : Chain} {s : Segment} {l : List Segment}

def seek (c : Chain) (level : Nat) : Nat :=
  bisect (fun i => c.segments[i]?.any fun s => s.levelMax < level) 0 c.segments.length

def locate? (c : Chain) (level : Nat) : Option Nat :=
  if c.seek level < c.segments.length then some (c.seek level) else none

def startAfter (start : Nat) (l : List Segment) : Nat := l.getLast?.elim start fun s => s.levelMax + 1

def insertFound (c : Chain) (s : Segment) : Except FilterError (Nat × Chain) :=
  let i := c.seek s.levelMax
  if c.segments[i]?.any fun t => t.levelMax = s.levelMax then .error (.duplicateLevel s.levelMax)
  else .ok (i, ⟨c.segments.take i ++ { s with levelMin := startAfter 0 (c.segments.take i) } ::
    (c.segments.drop i).modifyHead fun t => { t with levelMin := s.levelMax + 1 }⟩)

theorem Ordered.seek_eq (ordered : c.Ordered) (level : Nat) : c.seek level = c.below level := by
  have falling : c.segments.Pairwise fun s t => decide (t.levelMax < level) → decide (s.levelMax < level) := by
    apply ordered.imp
    intro s t ascending
    simp only [decide_eq_true_eq]
    omega
  apply bisect_eq (Nat.zero_le _)
  · rw [Nat.zero_add]
    exact (List.takeWhile_prefix _).length_le
  · intro i _ _
    exact any_getElem?_iff falling

theorem Ordered.find?_eq_locate? (ordered : c.Ordered) (level : Nat) : c.find? level = c.locate? level := by
  have same : (fun s : Segment => decide (level ≤ s.levelMax)) = fun s => !decide (s.levelMax < level) := by
    funext s
    by_cases reaches : level ≤ s.levelMax
    · simp [reaches]
    · simp [reaches, Nat.not_le.1 reaches]
  rw [find?, same, findIdx?_eq_takeWhile, locate?, ordered.seek_eq, below]

theorem place_eq (s : Segment) (start : Nat) (l : List Segment) :
    place s start l = l.takeWhile (fun t => t.levelMax < s.levelMax) ++
      { s with levelMin := startAfter start (l.takeWhile fun t => t.levelMax < s.levelMax) } ::
        (l.dropWhile fun t => t.levelMax < s.levelMax).modifyHead fun t => { t with levelMin := s.levelMax + 1 } := by
  induction l generalizing start with
  | nil => rfl
  | cons t l ih =>
      by_cases below : t.levelMax < s.levelMax
      · rw [place, if_pos below, ih, List.takeWhile_cons_of_pos (by simpa using below),
          List.dropWhile_cons_of_pos (by simpa using below)]
        cases l.takeWhile fun t => t.levelMax < s.levelMax <;> simp [startAfter, List.getLast?_cons]
      · simp [place, startAfter, below]

theorem any_levelMax_eq (ordered : Ordered ⟨l⟩) (n : Nat) : (l.any fun t => t.levelMax = n) =
    l[(l.takeWhile fun t => t.levelMax < n).length]?.any fun t => t.levelMax = n := by
  induction l with
  | nil => rfl
  | cons t l ih =>
      obtain ⟨above, ordered⟩ := List.pairwise_cons.1 ordered
      by_cases below : t.levelMax < n
      · have other : t.levelMax ≠ n := by omega
        simpa [below, other] using ih ordered
      · have others : ∀ u ∈ l, u.levelMax ≠ n := by
          intro u mem
          have := above u mem
          omega
        have none : (l.any fun u => u.levelMax = n) = false := by simpa using others
        simp [below, none]

theorem Ordered.insert_eq_insertFound (ordered : c.Ordered) (s : Segment) : c.insert s = c.insertFound s := by
  have found := any_levelMax_eq ordered s.levelMax
  rw [Chain.insert, insertFound, ordered.seek_eq, below, found, place_eq, take_length_takeWhile, drop_length_takeWhile]

end Chain

end TraceGate.Filter
