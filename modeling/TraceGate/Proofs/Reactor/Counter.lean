import TraceGate.Proofs.Reactor.Numbers

namespace TraceGate.Ids

variable {counter : UInt32} {ids : Ids} {k n : Nat}

def number? (raw : UInt32) : Option UInt32 := if raw = 0 then none else some raw

/-- The first number that the counter shows, and where it stands then. It goes on by one with every look; none if all
looks are used up. -/
def look? : (looks : Nat) → UInt32 → Option (UInt32 × UInt32)
  | 0, _ => none
  | looks + 1, counter => match number? counter with
    | some id => some (id, counter + 1)
    | none => look? looks (counter + 1)

def lookMany? (looks : Nat) : (n : Nat) → UInt32 → Option (List UInt32)
  | 0, _ => some []
  | n + 1, counter => (look? looks counter).bind fun (id, later) => (lookMany? looks n later).map (id :: ·)

theorem look?_of_ne (other : counter ≠ 0) (looks : Nat) : look? (looks + 1) counter = some (counter, counter + 1) := by
  rw [look?, number?, if_neg other]

theorem look?_zero (looks : Nat) : look? (looks + 2) 0 = some (1, 2) := by
  rw [look?, number?, if_pos rfl]
  exact look?_of_ne (by decide) looks

theorem look?_ends (counter : UInt32) :
    ∃ id later, id ≠ 0 ∧ ∀ looks, look? (looks + 2) counter = some (id, later) := by
  by_cases zero : counter = 0
  · subst zero
    exact ⟨1, 2, by decide, look?_zero⟩
  · exact ⟨counter, counter + 1, zero, fun looks => look?_of_ne zero (looks + 1)⟩

/-- The counter as 32 bits hold it. -/
def word (ids : Ids) : UInt32 := UInt32.ofNat ids.next

theorem take_fst_lt (ids : Ids) : ids.take.1 < idBound := by
  unfold Ids.take
  split
  · exact (by decide : 1 < idBound)
  · exact Nat.mod_lt _ (by decide)

theorem look?_word (ids : Ids) : look? 2 ids.word = some (UInt32.ofNat ids.take.1, ids.take.2.word) := by
  have zero_iff : ids.word = 0 ↔ ids.next % idBound = 0 := by
    rw [← UInt32.toNat_inj, word, UInt32.toNat_ofNat']
    rfl
  unfold Ids.take
  split
  · -- Zero is passed over, and the counter goes on by two.
    rename_i zero
    have stands := zero_iff.2 zero
    rw [stands, look?_zero 0]
    refine congrArg some (Prod.ext rfl ?_)
    change 2 = UInt32.ofNat (ids.next + 2)
    rw [UInt32.ofNat_add, ← word, stands]
    rfl
  · rename_i other
    rw [look?_of_ne (mt zero_iff.1 other) 1]
    refine congrArg some (Prod.ext ?_ ?_)
    · exact UInt32.toNat_inj.1 (by simp [word, idBound])
    · rw [word, word, UInt32.ofNat_add]
      rfl

theorem lookMany?_word (n : Nat) (ids : Ids) :
    ∃ issued, lookMany? 2 n ids.word = some issued ∧ issued.map UInt32.toNat = ids.takeMany n := by
  induction n generalizing ids with
  | zero => exact ⟨[], rfl, rfl⟩
  | succ n ih =>
      obtain ⟨issued, looked, same⟩ := ih ids.take.2
      refine ⟨UInt32.ofNat ids.take.1 :: issued, ?_, ?_⟩
      · rw [lookMany?, look?_word, Option.bind_some]
        dsimp only
        rw [looked, Option.map_some]
      · rw [List.map_cons, same, takeMany, UInt32.toNat_ofNat_of_lt' (take_fst_lt ids)]

theorem startingAt_word (start : UInt32) : (startingAt start).word = max start 1 := by
  unfold startingAt word
  split
  · rename_i zero
    rw [zero]
    decide
  · rename_i other
    change UInt32.ofNat start.toNat = if start ≤ 1 then 1 else start
    rw [UInt32.ofNat_toNat]
    split
    · rename_i least
      have positive : start.toNat ≠ 0 := fun zero => other (UInt32.toNat_inj.1 zero)
      have small : start.toNat ≤ 1 := UInt32.le_iff_toNat_le.1 least
      have one : start.toNat = 1 := by omega
      exact UInt32.toNat_inj.1 one
    · rfl

theorem startingAt_stands (start : UInt32) : (startingAt start).Stands (max start.toNat 1 - 1) := by
  have bound := start.toNat_lt
  refine Or.inl ?_
  unfold startingAt
  split
  · rename_i zero
    rw [zero]
    decide
  · rename_i other
    have positive : start.toNat ≠ 0 := fun zero => other (UInt32.toNat_inj.1 zero)
    simp only [idBound, numberAt, period]
    omega

theorem nodup_numberAt : ((List.range' k n).map numberAt).Nodup ↔ n ≤ period := by
  constructor
  · intro distinct
    by_contra more
    -- One round later the first number comes again.
    have here : k ∈ List.range' k n := List.mem_range'_1.2 (by omega)
    have later : k + period ∈ List.range' k n := List.mem_range'_1.2 (by omega)
    have same : numberAt k = numberAt (k + period) := numberAt_eq_iff.2 (Nat.add_mod_right k period).symm
    have eq := List.inj_on_of_nodup_map distinct here later same
    rw [period] at eq
    omega
  · intro few
    refine List.Nodup.map_on (fun i hi j hj same => ?_) List.nodup_range'
    rw [List.mem_range'_1] at hi hj
    simp only [numberAt, period] at same few
    omega

theorem isChain_numberAt (k n : Nat) : ((List.range' k n).map numberAt).IsChain
    fun id next => next = if id = 0xFFFFFFFF then 1 else id + 1 := by
  rw [List.isChain_map]
  refine (List.isChain_range' k n 1).imp fun i j next => ?_
  subst next
  by_cases last : numberAt i = 0xFFFFFFFF
  · rw [if_pos last]
    simp only [numberAt, period] at last ⊢
    omega
  · rw [if_neg last]
    simp only [numberAt, period] at last ⊢
    omega

/-- The first `n` numbers from a start: they go round from the start or from 1 in place of zero, and are distinct exactly
if there are not more of them than numbers. A counter of 32 bits gives the same numbers, with two looks for each at most. -/
theorem takeMany_cycles (start : UInt32) (n : Nat) :
    ((startingAt start).takeMany n).length = n ∧
    (∀ id ∈ (startingAt start).takeMany n, id ≠ 0 ∧ id ≤ 0xFFFFFFFF) ∧
    (∀ id ∈ ((startingAt start).takeMany n).head?, id = max start.toNat 1) ∧
    ((startingAt start).takeMany n).IsChain (fun id next => next = if id = 0xFFFFFFFF then 1 else id + 1) ∧
    (((startingAt start).takeMany n).Nodup ↔ n ≤ 0xFFFFFFFF) ∧
    (∃ issued, lookMany? 2 n (max start 1) = some issued ∧
      issued.map UInt32.toNat = (startingAt start).takeMany n) ∧
    ∀ counter, ∃ id later, id ≠ 0 ∧ ∀ looks, look? (looks + 2) counter = some (id, later) := by
  have looked := lookMany?_word n (startingAt start)
  rw [startingAt_word] at looked
  have first : numberAt (max start.toNat 1 - 1) = max start.toNat 1 := by
    have bound := start.toNat_lt
    simp only [numberAt, period]
    omega
  rw [(startingAt_stands start).takeMany n] at looked ⊢
  refine ⟨by simp, fun id mem => ?_, fun id head => ?_, isChain_numberAt _ n, nodup_numberAt, looked, look?_ends⟩
  · obtain ⟨i, -, rfl⟩ := List.mem_map.1 mem
    simp only [numberAt, period]
    omega
  · cases n with
    | zero => cases head
    | succ n =>
        rw [List.range'_succ, List.map_cons, List.head?_cons, Option.mem_some_iff] at head
        rw [← head, first]

end TraceGate.Ids
