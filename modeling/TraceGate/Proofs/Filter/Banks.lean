import Mathlib.Data.List.Induction
import TraceGate.Proofs.Filter.ListText

namespace TraceGate.Filter

open Service

inductive Bank where
  | lower
  | upper
deriving DecidableEq, Repr

structure Place where
  bank : Bank
  byte : Nat
  bit : Nat
deriving DecidableEq, Repr

def Place.ofId? (id : Nat) : Option Place :=
  if 0x01 ≤ id ∧ id < 0x21 then some ⟨.lower, (id &&& 0xFF) >>> 3, id &&& 0x07⟩
  else if id &&& 0xF00 = 0xF00 ∧ 0xF00 < id ∧ id < 0xF0C then some ⟨.upper, (id &&& 0xFF) >>> 3, id &&& 0x07⟩
  else none

structure Octets where
  lower : List (BitVec 8)
  upper : List (BitVec 8)
deriving DecidableEq, Repr

namespace Octets

def empty : Octets := ⟨List.replicate 32 0, List.replicate 32 0⟩

def full : Octets := ⟨List.replicate 32 0xFF, List.replicate 32 0xFF⟩

def bank (o : Octets) : Bank → List (BitVec 8)
  | .lower => o.lower
  | .upper => o.upper

def put (o : Octets) (p : Place) (b : BitVec 8) : Octets :=
  match p.bank with
  | .lower => { o with lower := o.lower.set p.byte b }
  | .upper => { o with upper := o.upper.set p.byte b }

def at? (o : Octets) (p : Place) : Option (BitVec 8) := if p.bit < 8 then (o.bank p.bank)[p.byte]? else none

def test? (o : Octets) (id : Nat) : Option (Except FilterError Bool) :=
  match Place.ofId? id with
  | some p => (o.at? p).map fun b => .ok (b &&& BitVec.twoPow 8 p.bit != 0)
  | none => some (.error (.serviceIdOutOfRange id))

def insert? (o : Octets) (id : Nat) : Option (Except FilterError Octets) :=
  match Place.ofId? id with
  | some p => (o.at? p).map fun b => .ok (o.put p (b ||| BitVec.twoPow 8 p.bit))
  | none => some (.error (.serviceIdOutOfRange id))

def isEmpty (o : Octets) : Bool := (o.lower ++ o.upper).all (· == 0)

end Octets

def bytesOf (w : BitVec 256) : List (BitVec 8) := (List.range 32).map fun i => w.extractLsb' (8 * i) 8

def ServiceSet.octets (s : ServiceSet) : Octets := ⟨bytesOf s.lower, bytesOf s.upper⟩

section

variable {w : BitVec 256} {s t : ServiceSet} {id n : Nat} {bank : Bank}

theorem Place.ofId?_eq (id : Nat) : ofId? id =
    if InLowerBank id then some ⟨.lower, ServiceSet.bit id / 8, ServiceSet.bit id % 8⟩
    else if InUpperBank id then some ⟨.upper, ServiceSet.bit id / 8, ServiceSet.bit id % 8⟩
    else none := by
  have byte : (id &&& 0xFF) >>> 3 = ServiceSet.bit id / 8 := by
    rw [Nat.and_two_pow_sub_one_eq_mod id 8, Nat.shiftRight_eq_div_pow, ServiceSet.bit]
  have bit : id &&& 0x07 = ServiceSet.bit id % 8 := by
    rw [Nat.and_two_pow_sub_one_eq_mod id 3, ServiceSet.bit]
    omega
  have lower : 0x01 ≤ id ∧ id < 0x21 ↔ InLowerBank id := by
    rw [InLowerBank]
    omega
  have upper : id &&& 0xF00 = 0xF00 ∧ 0xF00 < id ∧ id < 0xF0C ↔ InUpperBank id := by
    rw [InUpperBank]
    constructor
    · omega
    · rintro ⟨low, high⟩
      -- So near to the class bits no carry reaches them.
      have classed : ∀ i : Fin 12, (0xF00 + i.val) &&& 0xF00 = 0xF00 := by decide
      obtain ⟨i, rfl⟩ := Nat.exists_eq_add_of_le (Nat.le_of_lt low)
      exact ⟨classed ⟨i, by omega⟩, by omega, by omega⟩
  simp only [ofId?, byte, bit, lower, upper]

theorem length_bytesOf (w : BitVec 256) : (bytesOf w).length = 32 := by
  simp [bytesOf]

theorem getElem?_bytesOf {i : Nat} (inside : i < 32) : (bytesOf w)[i]? = some (w.extractLsb' (8 * i) 8) := by
  simp [bytesOf, inside]

theorem bytesOf_eq_replicate {b : BitVec 8} (same : ∀ i < 32, w.extractLsb' (8 * i) 8 = b) :
    bytesOf w = List.replicate 32 b := by
  refine List.eq_replicate_iff.2 ⟨length_bytesOf w, fun c mem => ?_⟩
  obtain ⟨i, inside, rfl⟩ := List.mem_map.1 mem
  exact same i (List.mem_range.1 inside)

theorem bytesOf_or (w : BitVec 256) (small : n < 256) :
    bytesOf (w ||| BitVec.twoPow 256 n) =
      (bytesOf w).set (n / 8) (w.extractLsb' (8 * (n / 8)) 8 ||| BitVec.twoPow 8 (n % 8)) := by
  apply List.ext_getElem
  · simp [length_bytesOf]
  · intro i inside _
    rw [length_bytesOf] at inside
    rw [List.getElem_set]
    simp only [bytesOf, List.getElem_map, List.getElem_range]
    split
    · rename_i here
      subst here
      apply BitVec.eq_of_getLsbD_eq
      intro j bit
      simp only [BitVec.getLsbD_extractLsb', BitVec.getLsbD_or, BitVec.getLsbD_twoPow, bit, decide_true, Bool.true_and]
      congr 1
      rw [Bool.eq_iff_iff]
      simp only [Bool.and_eq_true, decide_eq_true_eq]
      omega
    · -- The new bit is in none of the other bytes.
      rename_i elsewhere
      apply BitVec.eq_of_getLsbD_eq
      intro j bit
      have other : n ≠ 8 * i + j := by omega
      simp [other]

theorem and_twoPow_bne (b : BitVec 8) {i : Nat} (inside : i < 8) :
    (b &&& BitVec.twoPow 8 i != 0) = b.getLsbD i := by
  have set : ∀ i : Fin 8, BitVec.twoPow 8 i.val ≠ 0 := by decide
  rw [BitVec.and_twoPow]
  split
  · rename_i present
    rw [present]
    exact bne_iff_ne.2 (set ⟨i, inside⟩)
  · rename_i absent
    simp [absent]

namespace ServiceSet

def word (s : ServiceSet) : Bank → BitVec 256
  | .lower => s.lower
  | .upper => s.upper

theorem octets_at? (s : ServiceSet) (bank : Bank) (small : n < 256) :
    s.octets.at? ⟨bank, n / 8, n % 8⟩ = some ((s.word bank).extractLsb' (8 * (n / 8)) 8) := by
  have byte : n / 8 < 32 := by omega
  have bit : n % 8 < 8 := Nat.mod_lt _ (by decide)
  rw [Octets.at?, if_pos bit]
  cases bank <;> exact getElem?_bytesOf byte

theorem octets_test? (s : ServiceSet) (id : Nat) : s.octets.test? id = some (s.test id) := by
  have read (bank : Bank) : (s.octets.at? ⟨bank, bit id / 8, bit id % 8⟩).map
      (fun b => (.ok (b &&& BitVec.twoPow 8 (bit id % 8) != 0) : Except FilterError Bool)) =
        some (.ok ((s.word bank).getLsbD (bit id))) := by
    have inside : bit id % 8 < 8 := Nat.mod_lt _ (by decide)
    rw [octets_at? s bank (bit_lt id), Option.map_some, and_twoPow_bne _ inside, BitVec.getLsbD_extractLsb',
      decide_eq_true inside, Bool.true_and, Nat.div_add_mod]
  unfold Octets.test? test
  rw [Place.ofId?_eq]
  by_cases lower : InLowerBank id
  · rw [if_pos lower, if_pos lower]
    exact read .lower
  · rw [if_neg lower, if_neg lower]
    by_cases upper : InUpperBank id
    · rw [if_pos upper, if_pos upper]
      exact read .upper
    · rw [if_neg upper, if_neg upper]

theorem octets_insert? (s : ServiceSet) (id : Nat) : s.octets.insert? id = some ((s.insert id).map octets) := by
  unfold Octets.insert? insert
  rw [Place.ofId?_eq]
  by_cases lower : InLowerBank id
  · rw [if_pos lower, if_pos lower]
    dsimp only
    rw [octets_at? s .lower (bit_lt id), Option.map_some]
    simp only [Octets.put, octets, Except.map, bytesOf_or s.lower (bit_lt id), word]
  · rw [if_neg lower, if_neg lower]
    by_cases upper : InUpperBank id
    · rw [if_pos upper, if_pos upper]
      dsimp only
      rw [octets_at? s .upper (bit_lt id), Option.map_some]
      simp only [Octets.put, octets, Except.map, bytesOf_or s.upper (bit_lt id), word]
    · rw [if_neg upper, if_neg upper]
      rfl

theorem octets_empty : (∅ : ServiceSet).octets = .empty := by
  have zero : bytesOf 0 = List.replicate 32 0 := bytesOf_eq_replicate fun i _ => by simp
  rw [octets, Octets.empty, ← zero]
  rfl

theorem octets_full : full.octets = .full := by
  have ones : bytesOf (BitVec.allOnes 256) = List.replicate 32 0xFF := by
    refine bytesOf_eq_replicate fun i inside => BitVec.eq_of_getLsbD_eq fun j bit => ?_
    have known : ∀ j : Fin 8, (0xFF : BitVec 8).getLsbD j.val = true := by decide
    rw [BitVec.getLsbD_extractLsb', BitVec.getLsbD_allOnes, known ⟨j, bit⟩]
    simp only [Bool.and_eq_true, decide_eq_true_eq]
    omega
  rw [octets, Octets.full, ← ones]
  rfl

theorem all_bytesOf_eq (w : BitVec 256) : (bytesOf w).all (· == 0) = (w == 0) := by
  rw [Bool.eq_iff_iff, List.all_eq_true, beq_iff_eq]
  constructor
  · intro zeros
    apply BitVec.eq_of_getLsbD_eq
    intro i inside
    have byte : w.extractLsb' (8 * (i / 8)) 8 = 0 := by
      refine eq_of_beq (zeros _ (List.mem_map.2 ⟨i / 8, List.mem_range.2 (by omega), rfl⟩))
    have bit := congrArg (fun b => b.getLsbD (i % 8)) byte
    have small : i % 8 < 8 := Nat.mod_lt _ (by decide)
    simpa [small, Nat.div_add_mod] using bit
  · rintro rfl c mem
    obtain ⟨i, -, rfl⟩ := List.mem_map.1 mem
    simp

theorem octets_isEmpty (s : ServiceSet) : s.octets.isEmpty = s.isEmpty := by
  rw [Octets.isEmpty, octets, List.all_append, all_bytesOf_eq, all_bytesOf_eq, isEmpty]

end ServiceSet

end

inductive ServiceSet.Call where
  | insert (id : Nat)
  | fill
  | clear
deriving DecidableEq, Repr

def Octets.call? (o : Octets) : ServiceSet.Call → Option Octets
  | .insert id => (o.insert? id).map fun r => r.toOption.getD o
  | .fill => some full
  | .clear => some empty

def Octets.after? (history : List ServiceSet.Call) : Option Octets := history.foldlM call? empty

namespace ServiceSet

def call (s : ServiceSet) : Call → ServiceSet
  | .insert id => (s.insert id).toOption.getD s
  | .fill => full
  | .clear => ∅

def after (history : List Call) : ServiceSet := history.foldl call ∅

def Granted (history : List Call) (id : Nat) : Prop :=
  ∃ before call since, history = before ++ call :: since ∧ (call = .insert id ∨ call = .fill) ∧ .clear ∉ since

variable {s t : ServiceSet} {history : List Call} {c : Call} {id : Nat}

theorem octets_call? (s : ServiceSet) (c : Call) : s.octets.call? c = some (s.call c).octets := by
  cases c with
  | insert id =>
      rw [Octets.call?, octets_insert?, call, Option.map_some]
      cases s.insert id <;> rfl
  | fill => rw [Octets.call?, call, octets_full]
  | clear => rw [Octets.call?, call, octets_empty]

theorem after_concat (history : List Call) (c : Call) : after (history ++ [c]) = (after history).call c := by
  rw [after, List.foldl_append]
  rfl

theorem octets_after? (history : List Call) : Octets.after? history = some (after history).octets := by
  induction history using List.reverseRecOn with
  | nil => rw [after, List.foldl_nil, octets_empty]; rfl
  | append_singleton history c ih =>
      rw [Octets.after?] at ih
      rw [Octets.after?, List.foldlM_append, ih, after_concat, ← octets_call?]
      simp

theorem granted_concat :
    Granted (history ++ [c]) id ↔ c = .insert id ∨ c = .fill ∨ c ≠ .clear ∧ Granted history id := by
  constructor
  · rintro ⟨before, call, since, eq, grants, kept⟩
    rcases List.eq_nil_or_concat since with rfl | ⟨since, last, rfl⟩
    · obtain ⟨-, last⟩ := List.append_inj' eq rfl
      obtain rfl : c = call := List.head_eq_of_cons_eq last
      exact grants.imp_right Or.inl
    · rw [List.concat_eq_append] at eq kept
      rw [← List.cons_append, ← List.append_assoc] at eq
      obtain ⟨rfl, same⟩ := List.append_inj' eq rfl
      obtain rfl : c = last := List.head_eq_of_cons_eq same
      rw [List.mem_append, not_or, List.mem_singleton] at kept
      exact Or.inr (Or.inr ⟨Ne.symm kept.2, before, call, since, rfl, grants, kept.1⟩)
  · have here (grants : c = .insert id ∨ c = .fill) : Granted (history ++ [c]) id :=
      ⟨history, c, [], rfl, grants, List.not_mem_nil⟩
    rintro (added | filled | ⟨kept, before, call, since, rfl, grants, uncleared⟩)
    · exact here (Or.inl added)
    · exact here (Or.inr filled)
    · refine ⟨before, call, since ++ [c], by simp, grants, ?_⟩
      rw [List.mem_append, not_or, List.mem_singleton]
      exact ⟨uncleared, Ne.symm kept⟩

theorem mem_after : id ∈ after history ↔ Legal id ∧ Granted history id := by
  induction history using List.reverseRecOn with
  | nil =>
      refine iff_of_false not_mem_empty ?_
      rintro ⟨-, before, call, since, eq, -⟩
      simp at eq
  | append_singleton history c ih =>
      rw [after_concat, granted_concat]
      cases c with
      | insert a =>
          have single : (after history).call (.insert a) =
              [a].foldl (fun s id => (s.insert id).toOption.getD s) (after history) := rfl
          have added : id ∈ (after history).call (.insert a) ↔ id ∈ after history ∨ Legal id ∧ id ∈ [a] := by
            rw [single, mem_of_insertAll]
          rw [added, ih, List.mem_singleton, ← and_or_left]
          simp [or_comm, eq_comm]
      | fill => simp [call, mem_full]
      | clear => simp [call, not_mem_empty]

/-- Every bit that is set belongs to a service. -/
structure Plain (s : ServiceSet) : Prop where
  lower : ∀ i, s.lower.getLsbD i = true → InLowerBank i
  upper : ∀ i, s.upper.getLsbD i = true → InUpperBank (0xF00 + i)

theorem plain_empty : Plain ∅ := by
  constructor <;> intro i bit <;> simp [EmptyCollection.emptyCollection] at bit

theorem Plain.insert (plain : s.Plain) (added : s.insert id = .ok t) : t.Plain := by
  unfold ServiceSet.insert at added
  split at added
  · rename_i inside
    cases added
    refine ⟨fun i set => ?_, plain.upper⟩
    rw [BitVec.getLsbD_or, BitVec.getLsbD_twoPow, Bool.or_eq_true] at set
    rcases set with old | new
    · exact plain.lower i old
    · rw [Bool.and_eq_true, decide_eq_true_eq, decide_eq_true_eq, bit] at new
      simp only [InLowerBank] at inside ⊢
      omega
  · split at added
    · rename_i inside
      cases added
      refine ⟨plain.lower, fun i set => ?_⟩
      rw [BitVec.getLsbD_or, BitVec.getLsbD_twoPow, Bool.or_eq_true] at set
      rcases set with old | new
      · exact plain.upper i old
      · rw [Bool.and_eq_true, decide_eq_true_eq, decide_eq_true_eq, bit] at new
        simp only [InUpperBank] at inside ⊢
        omega
    · cases added

theorem Plain.keep (plain : s.Plain) (id : Nat) : ((s.insert id).toOption.getD s).Plain := by
  cases added : s.insert id with
  | ok t => exact plain.insert added
  | error e => exact plain

theorem plain_ofList (ids : List Nat) : (ofList ids).Plain := by
  rw [ofList]
  induction ids using List.reverseRecOn with
  | nil => exact plain_empty
  | append_singleton ids id ih =>
      rw [List.foldl_append]
      exact ih.keep id

theorem Plain.ext (plain : s.Plain) (plain' : t.Plain) (same : ∀ id, id ∈ s ↔ id ∈ t) : s = t := by
  have lower (u : ServiceSet) {i : Nat} (inside : InLowerBank i) : i ∈ u ↔ u.lower.getLsbD i = true := by
    have small : bit i = i := Nat.mod_eq_of_lt (by rw [InLowerBank] at inside; omega)
    rw [mem_def, test, if_pos inside, small, Except.ok.injEq]
  have upper (u : ServiceSet) {i : Nat} (inside : InUpperBank (0xF00 + i)) :
      0xF00 + i ∈ u ↔ u.upper.getLsbD i = true := by
    have above : ¬InLowerBank (0xF00 + i) := by rw [InLowerBank]; omega
    have small : bit (0xF00 + i) = i := by rw [InUpperBank] at inside; rw [bit]; omega
    rw [mem_def, test, if_neg above, if_pos inside, small, Except.ok.injEq]
  refine ServiceSet.ext (BitVec.eq_of_getLsbD_eq fun i _ => ?_) (BitVec.eq_of_getLsbD_eq fun i _ => ?_)
  · rw [Bool.eq_iff_iff]
    by_cases inside : InLowerBank i
    · rw [← lower s inside, ← lower t inside, same]
    · exact iff_of_false (mt (plain.lower i) inside) (mt (plain'.lower i) inside)
  · rw [Bool.eq_iff_iff]
    by_cases inside : InUpperBank (0xF00 + i)
    · rw [← upper s inside, ← upper t inside, same]
    · exact iff_of_false (mt (plain.upper i) inside) (mt (plain'.upper i) inside)

theorem call_full (id : Nat) : full.call (.insert id) = full := by
  change (full.insert id).toOption.getD full = full
  unfold ServiceSet.insert full
  rw [BitVec.allOnes_or]
  split
  · rfl
  · split <;> rfl

theorem after_full_or_plain (history : List Call) : after history = full ∨ (after history).Plain := by
  induction history using List.reverseRecOn with
  | nil => exact Or.inr plain_empty
  | append_singleton history c ih =>
      rw [after_concat]
      cases c with
      | fill => exact Or.inl rfl
      | clear => exact Or.inr plain_empty
      | insert id =>
          rcases ih with filled | plain
          · -- Stray bits do not outlast a full set, as adding to it changes nothing.
            rw [filled, call_full]
            exact Or.inl rfl
          · exact Or.inr (plain.keep id)

theorem isEmpty_after : (after history).isEmpty = true ↔ ∀ id, id ∉ after history := by
  rcases after_full_or_plain history with filled | plain
  · -- A full set has bits of no service, but it has services as well.
    rw [filled]
    exact iff_of_false (by decide) fun none => none 1 (by decide)
  · have empty : (after history).isEmpty = true ↔ after history = ∅ := by
      rw [isEmpty, Bool.and_eq_true, beq_iff_eq, beq_iff_eq, ServiceSet.ext_iff]
      rfl
    rw [empty]
    constructor
    · intro eq id
      rw [eq]
      exact not_mem_empty
    · exact fun none => plain.ext plain_empty fun id => iff_of_false (none id) not_mem_empty

/-- What a set answers that has gone through the calls of a history, and what its bytes are. -/
structure Settles (history : List Call) (s : ServiceSet) : Prop where
  allows : ∀ id, s.test id = .ok true ↔ Legal id ∧ Granted history id
  denies : ∀ id, s.test id = .ok false ↔ Legal id ∧ ¬Granted history id
  unknown : ∀ id e, s.test id = .error e ↔ ¬Legal id ∧ e = .serviceIdOutOfRange id
  refuses : ∀ id e, s.insert id = .error e ↔ ¬Legal id ∧ e = .serviceIdOutOfRange id
  keeps : ∀ id, ¬Legal id → Octets.after? (history ++ [.insert id]) = Octets.after? history
  isEmpty : s.isEmpty = true ↔ ∀ id, Legal id → s.test id = .ok false
  octets : Octets.after? history = some s.octets
  tests : ∀ id, s.octets.test? id = some (s.test id)
  inserts : ∀ id, s.octets.insert? id = some ((s.insert id).map ServiceSet.octets)
  vacant : s.octets.isEmpty = s.isEmpty

theorem test_eq_false_iff : s.test id = .ok false ↔ Legal id ∧ id ∉ s := by
  rw [mem_def]
  cases tested : s.test id with
  | error e => simp [(test_eq_error_iff.1 tested).1]
  | ok b =>
      have legal : Legal id := by
        by_contra illegal
        rw [test_eq_error_iff.2 ⟨illegal, rfl⟩] at tested
        cases tested
      cases b <;> simp [legal]

/-- A set that was new goes through any calls as a set of services would, and so do its bytes. -/
theorem after_settles (history : List Call) : Settles history (after history) where
  allows id := mem_after
  denies id := by
    rw [test_eq_false_iff, mem_after]
    exact and_congr_right fun legal => not_congr (and_iff_right legal)
  unknown id e := test_eq_error_iff
  refuses id e := insert_eq_error_iff
  keeps id illegal := by
    rw [octets_after?, octets_after?, after_concat, call, insert_eq_error_iff.2 ⟨illegal, rfl⟩]
    rfl
  isEmpty := by
    rw [isEmpty_after]
    refine forall_congr' fun id => ?_
    rw [test_eq_false_iff]
    constructor
    · exact fun out legal => ⟨legal, out⟩
    · exact fun out mem => (out (mem_after.1 mem).1).2 mem
  octets := octets_after? history
  tests := octets_test? _
  inserts := octets_insert? _
  vacant := octets_isEmpty _

end ServiceSet

end TraceGate.Filter
