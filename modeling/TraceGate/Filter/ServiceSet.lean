import TraceGate.Filter.Error
import TraceGate.Service

/-!
# Sets of control services

A `ServiceSet` says which control services a policy allows. It keeps two banks of 256 bits, and a
service has the bit numbered by the low byte of its id in its own bank. Most bits belong to no
service: `full` sets them too, and only a set that was filled as a whole has them.
-/

namespace TraceGate.Filter

@[ext] structure ServiceSet where
  lower : BitVec 256
  upper : BitVec 256
deriving DecidableEq, Repr

namespace ServiceSet

open Service

instance : EmptyCollection ServiceSet where
  emptyCollection := ⟨0, 0⟩

def full : ServiceSet := ⟨BitVec.allOnes 256, BitVec.allOnes 256⟩

def bit (id : Nat) : Nat := id % 256

def insert (s : ServiceSet) (id : Nat) : Except FilterError ServiceSet :=
  if InLowerBank id then .ok { s with lower := s.lower ||| BitVec.twoPow 256 (bit id) }
  else if InUpperBank id then .ok { s with upper := s.upper ||| BitVec.twoPow 256 (bit id) }
  else .error (.serviceIdOutOfRange id)

/-- Whether the set allows a service; asking for a number that is no service is an error. -/
def test (s : ServiceSet) (id : Nat) : Except FilterError Bool :=
  if InLowerBank id then .ok (s.lower.getLsbD (bit id))
  else if InUpperBank id then .ok (s.upper.getLsbD (bit id))
  else .error (.serviceIdOutOfRange id)

instance : Membership Nat ServiceSet where
  mem s id := s.test id = .ok true

instance (id : Nat) (s : ServiceSet) : Decidable (id ∈ s) :=
  match h : s.test id with
  | .ok true => .isTrue h
  | .ok false => .isFalse (by simp [Membership.mem, h])
  | .error _ => .isFalse (by simp [Membership.mem, h])

def isEmpty (s : ServiceSet) : Bool := s.lower == 0 && s.upper == 0

def toList (s : ServiceSet) : List Nat := legalIds.filter (· ∈ s)

def ofList (ids : List Nat) : ServiceSet :=
  ids.foldl (fun s id => (s.insert id).toOption.getD s) ∅

variable {s t : ServiceSet} {id m : Nat}

theorem bit_lt (id : Nat) : bit id < 256 := Nat.mod_lt _ (by decide)

theorem mem_def : id ∈ s ↔ s.test id = .ok true := Iff.rfl

theorem test_eq_error_iff {e : FilterError} :
    s.test id = .error e ↔ ¬Legal id ∧ e = .serviceIdOutOfRange id := by
  simp only [test]
  split
  · simp [Legal, *]
  · split
    · simp [Legal, *]
    · simp [Legal, *, eq_comm]

theorem insert_eq_error_iff {e : FilterError} :
    s.insert id = .error e ↔ ¬Legal id ∧ e = .serviceIdOutOfRange id := by
  simp only [insert]
  split
  · simp [Legal, *]
  · split
    · simp [Legal, *]
    · simp [Legal, *, eq_comm]

theorem not_mem_empty : id ∉ (∅ : ServiceSet) := by
  simp only [mem_def, test, EmptyCollection.emptyCollection]
  split
  · simp
  · split <;> simp

theorem mem_full : id ∈ full ↔ Legal id := by
  simp only [mem_def, test, full, BitVec.getLsbD_allOnes, bit_lt, decide_true, Legal]
  split
  · rename_i h; exact iff_of_true rfl (.inl h)
  · split
    · rename_i h; exact iff_of_true rfl (.inr h)
    · simp [*]

theorem getLsbD_or_twoPow (bank : BitVec 256) (id m : Nat) :
    (bank ||| BitVec.twoPow 256 (bit id)).getLsbD (bit m)
      = (bank.getLsbD (bit m) || decide (bit m = bit id)) := by
  simp [bit_lt, eq_comm]

theorem mem_of_insert (h : s.insert id = .ok t) : m ∈ t ↔ m ∈ s ∨ m = id := by
  have low (hi : InLowerBank id) (hm : InLowerBank m) : bit m = bit id ↔ m = id := by
    simp only [InLowerBank, bit] at *; omega
  have up (hi : InUpperBank id) (hm : InUpperBank m) : bit m = bit id ↔ m = id := by
    simp only [InUpperBank, bit] at *; omega
  simp only [insert] at h
  split at h
  · rename_i hi
    cases h
    simp only [mem_def, test, getLsbD_or_twoPow]
    split
    · rename_i hm
      simp [low hi hm]
    · rename_i hm
      have : m ≠ id := fun e => hm (e ▸ hi)
      simp [this]
  · split at h
    · rename_i hl hi
      cases h
      simp only [mem_def, test, getLsbD_or_twoPow]
      split
      · rename_i hm
        have : m ≠ id := fun e => hl (e ▸ hm)
        simp [this]
      · split
        · rename_i hm
          simp [up hi hm]
        · rename_i hm
          have : m ≠ id := fun e => hm (e ▸ hi)
          simp [this]
    · cases h

end ServiceSet

end TraceGate.Filter
