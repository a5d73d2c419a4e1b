import Mathlib.Algebra.Group.Nat.Defs
import Mathlib.Order.Bounds.Defs
import TraceGate.Proofs.Reactor.Table

namespace TraceGate

/-- A list of slots, no two for one descriptor, and the greatest length that it has had. -/
structure Roll where
  slots : List Slot := []
  peak : Nat := 0
deriving DecidableEq, Repr

namespace Table

inductive Call where
  | enable (fd : Int) (wanted : Flags)
  | disable (fd : Int)
deriving DecidableEq, Repr

def Call.act {σ : Type} (enable : σ → Int → Flags → Except EventError σ) (disable : σ → Int → Bool × σ) :
    Call → σ → Except EventError Bool × σ
  | .enable fd wanted, s => match enable s fd wanted with
    | .ok s' => (.ok true, s')
    | .error e => (.error e, s)
  | .disable fd, s => (.ok (disable s fd).1, (disable s fd).2)

def Call.each {σ : Type} (act : Call → σ → Except EventError Bool × σ) :
    List Call → σ → List (Except EventError Bool) × σ
  | [], s => ([], s)
  | call :: rest, s => ((act call s).1 :: (each act rest (act call s).2).1, (each act rest (act call s).2).2)

def call : Call → Table → Except EventError Bool × Table := Call.act Table.enable Table.disable

end Table

namespace Roll

def Lists (l : Roll) (fd : Int) : Prop := fd ∈ l.slots.map (·.fd)

instance (l : Roll) (fd : Int) : Decidable (l.Lists fd) := inferInstanceAs (Decidable (_ ∈ _))

def enable (l : Roll) (fd : Int) (wanted : Flags) : Except EventError Roll :=
  if fd < 0 then .error (.invalidParameter (.noDescriptor fd))
  else if l.Lists fd then .error (.invalidParameter (.alreadyPolled fd))
  else .ok ⟨l.slots ++ [⟨fd, wanted, 0⟩], max l.peak (l.slots.length + 1)⟩

def disable (l : Roll) (fd : Int) : Bool × Roll :=
  (l.Lists fd, { l with slots := l.slots.filter fun s => s.fd ≠ fd })

def call : Table.Call → Roll → Except EventError Bool × Roll := Table.Call.act Roll.enable Roll.disable

end Roll

namespace Table

structure Holds (t : Table) (l : Roll) : Prop where
  occupied : t.occupied = l.slots
  used : t.used = l.slots.length
  distinct : (l.slots.map (·.fd)).Nodup
  vacant : ∀ s ∈ t.slots.drop t.used, s = .unused
  reached : l.slots.length ≤ l.peak
  capacity : IsLeast {n | ∃ k, n = baseCapacity * 2 ^ k ∧ l.peak ≤ n} t.capacity

variable {t t' : Table} {l : Roll} {fd : Int} {wanted : Flags}

theorem Holds.fits (holds : t.Holds l) : t.used ≤ t.slots.length := by
  have length := congrArg List.length holds.occupied
  rw [Table.occupied, List.length_take, ← holds.used] at length
  omega

theorem Holds.contains_iff (holds : t.Holds l) : t.contains fd = true ↔ l.Lists fd := by
  rw [Table.contains_iff, holds.occupied, Roll.Lists]

theorem isLeast_doubled {n peak : Nat} (least : IsLeast {m | ∃ k, m = baseCapacity * 2 ^ k ∧ peak ≤ m} n) :
    IsLeast {m | ∃ k, m = baseCapacity * 2 ^ k ∧ n + 1 ≤ m} (n + n) := by
  obtain ⟨⟨k, rfl, -⟩, -⟩ := least
  refine ⟨⟨k + 1, by rw [Nat.pow_succ, ← Nat.mul_assoc, Nat.mul_two], ?_⟩, ?_⟩
  · have positive : 0 < 2 ^ k := Nat.two_pow_pos k
    rw [baseCapacity]
    omega
  · rintro _ ⟨j, rfl, above⟩
    have more : 2 ^ k < 2 ^ j := Nat.lt_of_mul_lt_mul_left (a := baseCapacity) above
    have next : 2 ^ (k + 1) ≤ 2 ^ j := Nat.pow_le_pow_right (by decide) ((Nat.pow_lt_pow_iff_right (by decide)).1 more)
    rw [Nat.pow_succ] at next
    rw [baseCapacity]
    omega

theorem Holds.capacity_grown (holds : t.Holds l) :
    IsLeast {n | ∃ k, n = baseCapacity * 2 ^ k ∧ max l.peak (l.slots.length + 1) ≤ n} t.grown.length := by
  obtain ⟨⟨k, size, above⟩, least⟩ := holds.capacity
  rw [Table.capacity] at size above least
  have reached := holds.reached
  rw [← holds.used] at reached ⊢
  unfold Table.grown
  split
  · rename_i full
    have positive : 0 < t.slots.length := size ▸ Nat.mul_pos (by decide) (Nat.two_pow_pos k)
    have peak : max l.peak (t.used + 1) = t.slots.length + 1 := by omega
    rw [peak, List.length_append, List.length_replicate, Nat.max_eq_right positive]
    exact isLeast_doubled holds.capacity
  · rename_i spare
    have fits := holds.fits
    refine ⟨⟨k, size, by omega⟩, ?_⟩
    rintro _ ⟨j, rfl, higher⟩
    exact least ⟨j, rfl, by omega⟩

theorem Holds.vacant_grown (holds : t.Holds l) : ∀ s ∈ t.grown.drop t.used, s = .unused := by
  unfold Table.grown
  split
  · intro s mem
    rw [List.drop_append_of_le_length holds.fits, List.mem_append] at mem
    rcases mem with old | new
    · exact holds.vacant s old
    · exact List.eq_of_mem_replicate new
  · exact holds.vacant

theorem Holds.enable_ok (holds : t.Holds l) (enabled : t.enable fd wanted = .ok t') :
    ∃ l', l.enable fd wanted = .ok l' ∧ t'.Holds l' := by
  have occupied := occupied_enable holds.fits enabled
  obtain ⟨sign, apart, rfl⟩ := enable_eq_ok enabled
  have absent : ¬l.Lists fd := fun listed => by
    rw [holds.contains_iff.2 listed] at apart
    cases apart
  refine ⟨_, by rw [Roll.enable, if_neg (by omega), if_neg absent], ?_, ?_, ?_, fun s mem => ?_, ?_, ?_⟩
  · rw [occupied, holds.occupied]
  · rw [List.length_append, holds.used]
    rfl
  · rw [List.map_append, List.map_singleton, ← List.concat_eq_append]
    exact holds.distinct.concat absent
  · dsimp only at mem
    rw [List.drop_set_of_lt (Nat.lt_succ_self _)] at mem
    exact holds.vacant_grown s (List.drop_subset_drop_left _ (Nat.le_succ _) mem)
  · rw [List.length_append]
    exact Nat.le_max_right _ _
  · rw [Table.capacity, List.length_set]
    exact holds.capacity_grown

theorem Holds.enable_error {e : EventError} (holds : t.Holds l) (failed : t.enable fd wanted = .error e)
    (had : e ≠ .outOfMemory) : l.enable fd wanted = .error e := by
  unfold Table.enable at failed
  unfold Roll.enable
  split at failed
  · rename_i sign
    rw [if_pos sign]
    cases failed
    rfl
  · rename_i sign
    rw [if_neg sign]
    split at failed
    · rename_i listed
      rw [if_pos (holds.contains_iff.1 listed)]
      cases failed
      rfl
    · split at failed
      · cases failed
        exact absurd rfl had
      · cases failed

theorem Holds.disable_fst (holds : t.Holds l) (fd : Int) : (t.disable fd).1 = decide (l.Lists fd) := by
  rw [Bool.eq_iff_iff, decide_eq_true_iff, ← holds.contains_iff]
  unfold Table.disable Table.contains
  cases found : t.occupied.findIdx? (fun s => s.fd == fd) with
  | none => simpa using found
  | some i => simpa using List.findIdx?_isSome.symm.trans (congrArg Option.isSome found)

theorem vacant_disable (fits : t.used ≤ t.slots.length) (vacant : ∀ s ∈ t.slots.drop t.used, s = .unused) (fd : Int) :
    (∀ s ∈ (t.disable fd).2.slots.drop (t.disable fd).2.used, s = .unused) ∧
      (t.disable fd).2.slots.length = t.slots.length := by
  unfold Table.disable
  split
  · exact ⟨vacant, rfl⟩
  · rename_i i found
    have bound := (List.findIdx?_eq_some_iff_findIdx_eq.1 found).1
    rw [occupied_length fits] at bound
    have erased : (t.slots.eraseIdx i).length = t.slots.length - 1 := List.length_eraseIdx_of_lt (by omega)
    constructor
    · intro s mem
      dsimp only at mem
      obtain ⟨j, at_j⟩ := List.mem_iff_getElem?.1 mem
      rw [List.getElem?_drop] at at_j
      cases j with
      | zero =>
          rw [Nat.add_zero, List.getElem?_insertIdx_self, if_pos (by omega)] at at_j
          exact (Option.some.inj at_j).symm
      | succ j =>
          rw [List.getElem?_insertIdx_of_gt (by omega), List.getElem?_eraseIdx_of_ge (by omega)] at at_j
          refine vacant s (List.mem_iff_getElem?.2 ⟨j, ?_⟩)
          rw [List.getElem?_drop, ← at_j]
          congr 1
          omega
    · dsimp only
      rw [List.length_insertIdx_of_le_length (by omega), erased]
      omega

theorem Holds.disable_snd (holds : t.Holds l) (fd : Int) : (t.disable fd).2.Holds (l.disable fd).2 := by
  have occupied : (t.disable fd).2.occupied = t.occupied.eraseP (fun s => s.fd == fd) := occupied_disable holds.fits
  have fits : (t.disable fd).2.used ≤ (t.disable fd).2.slots.length := fits_disable holds.fits
  obtain ⟨vacant, length⟩ := vacant_disable holds.fits holds.vacant fd
  rw [holds.occupied, eraseP_eq_filter holds.distinct] at occupied
  refine ⟨occupied, ?_, ?_, vacant, ?_, ?_⟩
  · rw [← occupied_length fits, occupied, Roll.disable]
  · exact holds.distinct.sublist (List.filter_sublist.map _)
  · exact (List.length_filter_le _ _).trans holds.reached
  · rw [Table.capacity, length]
    exact holds.capacity

theorem Holds.call (holds : t.Holds l) (c : Call) (had : (Table.call c t).1 ≠ .error .outOfMemory) :
    (Table.call c t).1 = (Roll.call c l).1 ∧ (Table.call c t).2.Holds (Roll.call c l).2 := by
  cases c with
  | disable fd => exact ⟨congrArg Except.ok (holds.disable_fst fd), holds.disable_snd fd⟩
  | enable fd wanted =>
      unfold Table.call Roll.call Call.act at *
      dsimp only at *
      cases enabled : t.enable fd wanted with
      | ok t' =>
          obtain ⟨l', same, holds⟩ := holds.enable_ok enabled
          rw [same]
          exact ⟨rfl, holds⟩
      | error e =>
          rw [enabled] at had
          rw [holds.enable_error enabled fun eq => had (congrArg Except.error eq)]
          exact ⟨rfl, holds⟩

theorem Holds.each (holds : t.Holds l) {calls : List Call}
    (had : .error .outOfMemory ∉ (Call.each Table.call calls t).1) :
    (Call.each Table.call calls t).1 = (Call.each Roll.call calls l).1 ∧
      (Call.each Table.call calls t).2.Holds (Call.each Roll.call calls l).2 := by
  induction calls generalizing t l with
  | nil => exact ⟨rfl, holds⟩
  | cons c calls ih =>
      obtain ⟨first, later⟩ := not_or.1 (mt List.mem_cons.2 had)
      obtain ⟨answer, holds⟩ := holds.call c (Ne.symm first)
      obtain ⟨answers, holds⟩ := ih holds later
      exact ⟨congrArg₂ List.cons answer answers, holds⟩

theorem holds_empty (room : Option Nat) : ({ Table.empty with room } : Table).Holds {} where
  occupied := rfl
  used := rfl
  distinct := List.nodup_nil
  vacant _ mem := List.eq_of_mem_replicate mem
  reached := Nat.le_refl 0
  capacity := by
    refine ⟨⟨0, rfl, Nat.zero_le _⟩, ?_⟩
    rintro _ ⟨k, rfl, -⟩
    exact Nat.le_mul_of_pos_right _ (Nat.two_pow_pos k)

/-- The table that has been new answers as the list does and holds it, as long as there is memory. -/
theorem each_empty (room : Option Nat) (calls : List Call)
    (had : .error .outOfMemory ∉ (Call.each Table.call calls { Table.empty with room }).1) :
    (Call.each Table.call calls { Table.empty with room }).1 = (Call.each Roll.call calls {}).1 ∧
      (Call.each Table.call calls { Table.empty with room }).2.Holds (Call.each Roll.call calls {}).2 :=
  (holds_empty room).each had

namespace Crowding

def calls : List Call :=
  [.enable 3 1, .enable 4 1, .enable 5 4, .enable 3 4, .enable (-1) 1, .disable 4, .disable 4] ++
    [6, 7, 8, 9, 10, 4, 11].map (.enable · 1) ++ [.disable 3, .disable 11, .enable 3 5]

theorem each_crowding :
    .error .outOfMemory ∉ (Call.each Table.call calls { Table.empty with room := some 16 }).1 ∧
      (Call.each Table.call calls { Table.empty with room := some 16 }).2.Holds (Call.each Roll.call calls {}).2 ∧
      (Call.each Roll.call calls {}).2.slots.map (·.fd) = [5, 6, 7, 8, 9, 10, 4, 3] ∧
      (Call.each Table.call calls { Table.empty with room := some 16 }).2.capacity = 16 := by
  have had : .error .outOfMemory ∉ (Call.each Table.call calls { Table.empty with room := some 16 }).1 := by decide
  exact ⟨had, (each_empty (some 16) calls had).2, by decide, by decide⟩

end Crowding

end Table

end TraceGate
