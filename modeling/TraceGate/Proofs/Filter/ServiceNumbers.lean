import Mathlib.Data.List.Forall2
import TraceGate.Proofs.Filter.Items

namespace TraceGate.Filter.ListText

open Text

variable {token : List Char} {l m : List (List Char)} {ids : List Nat} {n : Nat} {word : String}

def IsDecimal (token : List Char) (n : Nat) : Prop := Numeral.Denotes 10 token n ∧ n < 2 ^ 32

theorem decimalId?_eq_some_iff : decimalId? token = some n ↔ IsDecimal token n := Numeral.read?_eq_some_iff

theorem decimalId?_eq_none_iff : decimalId? token = none ↔ ¬∃ n, IsDecimal token n := by
  simp only [← decimalId?_eq_some_iff, Option.eq_none_iff_forall_ne_some, ne_eq, not_exists]

theorem numbers_cons_of_some (read : decimalId? token = some n) (l : List (List Char)) :
    numbers (token :: l) = (numbers l).map (n :: ·) := by
  rw [numbers, read]

theorem numbers_cons_of_none (read : decimalId? token = none) (l : List (List Char)) :
    numbers (token :: l) = .error (String.ofList token) := by
  rw [numbers, read]

theorem numbers_eq_ok_iff : numbers l = .ok ids ↔ List.Forall₂ IsDecimal l ids := by
  induction l generalizing ids with
  | nil => simp [numbers, eq_comm]
  | cons token l ih =>
      rw [List.forall₂_cons_left_iff]
      cases read : decimalId? token with
      | none =>
          rw [numbers_cons_of_none read]
          refine iff_of_false (by simp) ?_
          rintro ⟨n, -, decimal, -⟩
          exact decimalId?_eq_none_iff.1 read ⟨n, decimal⟩
      | some n =>
          have decimal := decimalId?_eq_some_iff.1 read
          rw [numbers_cons_of_some read]
          constructor
          · intro ok
            cases tail : numbers l <;> rw [tail] at ok <;> cases ok
            exact ⟨n, _, decimal, ih.1 tail, rfl⟩
          · rintro ⟨n', rest, decimal', tail, rfl⟩
            rw [decimal.1.unique decimal'.1, ih.2 tail]
            rfl

theorem numbers_eq_error_iff : numbers l = .error word ↔ ∃ before token after, l = before ++ token :: after ∧
    (∀ t ∈ before, ∃ n, IsDecimal t n) ∧ (¬∃ n, IsDecimal token n) ∧ word = String.ofList token := by
  induction l with
  | nil => simp [numbers]
  | cons first l ih =>
      cases read : decimalId? first with
      | none =>
          have bad := decimalId?_eq_none_iff.1 read
          rw [numbers_cons_of_none read]
          constructor
          · rintro ⟨⟩
            exact ⟨[], first, l, rfl, by simp, bad, rfl⟩
          · rintro ⟨before, token, after, eq, good, -, rfl⟩
            cases before with
            | nil => rw [List.head_eq_of_cons_eq eq]
            | cons t before =>
                obtain rfl := List.head_eq_of_cons_eq eq
                exact absurd (good first List.mem_cons_self) bad
      | some n =>
          have decimal := decimalId?_eq_some_iff.1 read
          have tail : numbers (first :: l) = .error word ↔ numbers l = .error word := by
            rw [numbers_cons_of_some read]
            cases numbers l <;> simp [Except.map]
          rw [tail, ih]
          constructor
          · rintro ⟨before, token, after, rfl, good, bad, rfl⟩
            exact ⟨first :: before, token, after, rfl, List.forall_mem_cons.2 ⟨⟨n, decimal⟩, good⟩, bad, rfl⟩
          · rintro ⟨before, token, after, eq, good, bad, rfl⟩
            cases before with
            | nil =>
                obtain rfl := List.head_eq_of_cons_eq eq
                exact absurd ⟨n, decimal⟩ bad
            | cons t before =>
                exact ⟨before, token, after, List.tail_eq_of_cons_eq eq, fun t mem => good t (List.mem_cons_of_mem _ mem),
                  bad, rfl⟩

theorem numbers_append (l m : List (List Char)) :
    numbers (l ++ m) = (numbers l).bind fun ids => (numbers m).map (ids ++ ·) := by
  induction l with
  | nil => cases tail : numbers m <;> simp [numbers, tail, Except.bind, Except.map]
  | cons token l ih =>
      rw [List.cons_append]
      cases read : decimalId? token with
      | none => rw [numbers_cons_of_none read, numbers_cons_of_none read, Except.bind]
      | some n =>
          rw [numbers_cons_of_some read, numbers_cons_of_some read, ih]
          cases numbers l with
          | error e => rfl
          | ok ids => cases numbers m <;> rfl

theorem exists_forall₂_iff : (∃ ids, List.Forall₂ IsDecimal l ids) ↔ ∀ token ∈ l, ∃ n, IsDecimal token n := by
  induction l with
  | nil => simp
  | cons token l ih =>
      rw [List.forall_mem_cons, ← ih]
      constructor
      · rintro ⟨_, _ | ⟨decimal, rest⟩⟩
        exact ⟨⟨_, decimal⟩, _, rest⟩
      · rintro ⟨⟨n, decimal⟩, ids, rest⟩
        exact ⟨n :: ids, .cons decimal rest⟩

theorem serviceIds_eq (injection text : String) : serviceIds injection text =
    (numbers (tokens text.toList)).mapError fun t => .configInvalid injection (.badService t) := by
  unfold serviceIds
  cases numbers (tokens text.toList) <;> rfl

theorem serviceIds_join (injection a b : String) : serviceIds injection (a ++ "," ++ b) =
    (serviceIds injection a).bind fun ids => (serviceIds injection b).map (ids ++ ·) := by
  have joined : (a ++ "," ++ b).toList = a.toList ++ ',' :: b.toList := by simp
  rw [serviceIds_eq, serviceIds_eq, serviceIds_eq, joined, tokens_append, numbers_append]
  cases numbers (tokens a.toList) with
  | error t => rfl
  | ok ids => cases numbers (tokens b.toList) <;> rfl

structure Entry where
  left : List Char
  id : UInt32
  right : List Char
  left_blank : Blank left
  right_blank : Blank right

def Entry.text (e : Entry) : String := String.ofList e.left ++ Numeral.decimal e.id.toNat ++ String.ofList e.right

theorem isDecimal_write (id : UInt32) : IsDecimal (Numeral.write 10 id.toNat) id.toNat :=
  ⟨Numeral.denotes_write (by decide) (by decide) _, id.toNat_lt⟩

theorem Entry.tokens_text (e : Entry) : tokens e.text.toList = [Numeral.write 10 e.id.toNat] := by
  have item : IsItem (Numeral.write 10 e.id.toNat) := isItem_of_denotes (isDecimal_write e.id).1
  have whole : e.text.toList = e.left ++ Numeral.write 10 e.id.toNat ++ e.right := by simp [text, Numeral.decimal]
  rw [whole, tokens_item e.left_blank item e.right_blank]

theorem serviceIds_entries (injection : String) (entries : List Entry) :
    serviceIds injection (",".intercalate (entries.map Entry.text)) = .ok (entries.map fun e => e.id.toNat) := by
  have listed : tokens (",".intercalate (entries.map Entry.text)).toList =
      entries.map fun e => Numeral.write 10 e.id.toNat := by
    rw [String.toList_intercalate, show ",".toList = [','] from rfl, tokens_intercalate, List.flatMap_map,
      List.flatMap_map]
    simp only [Entry.tokens_text]
    rw [← List.map_eq_flatMap]
  rw [serviceIds_eq, listed, numbers_eq_ok_iff.2]
  · rfl
  · rw [List.forall₂_map_left_iff, List.forall₂_map_right_iff, List.forall₂_same]
    exact fun e _ => isDecimal_write e.id

theorem message_badService (injection token : String) :
    (FilterError.configInvalid injection (.badService token)).message =
      "Invalid filter configuration: injection '" ++ injection ++ "': service id '" ++ token ++
        "' is not a decimal integer" := by
  have joint : "': service id '" = "': " ++ "service id '" := by decide
  rw [joint]
  unfold FilterError.message InjectionFault.message
  simp only [String.append_assoc]

/-- A text of service numbers is read if all of its items are decimal numbers below `2 ^ 32`, which are returned in order,
and refused for the first one that is not. -/
theorem serviceIds_listed (injection : String) :
    (∀ text : String, ∃! items, Itemizes text.toList items) ∧
    (∀ (text : String) items, Itemizes text.toList items →
      ((∃ ids, serviceIds injection text = .ok ids) ↔ ∀ token ∈ items, ∃ n, IsDecimal token n) ∧
      (∀ ids, serviceIds injection text = .ok ids ↔ List.Forall₂ IsDecimal items ids) ∧
      ∀ e, serviceIds injection text = .error e ↔ ∃ before token after, items = before ++ token :: after ∧
        (∀ t ∈ before, ∃ n, IsDecimal t n) ∧ (¬∃ n, IsDecimal token n) ∧
        e = .configInvalid injection (.badService (String.ofList token)) ∧
        e.message = "Invalid filter configuration: injection '" ++ injection ++ "': service id '" ++
          String.ofList token ++ "' is not a decimal integer") ∧
    (∀ entries : List Entry, serviceIds injection (",".intercalate (entries.map Entry.text)) =
      .ok (entries.map fun e => e.id.toNat)) ∧
    ∀ a b : String, serviceIds injection (a ++ "," ++ b) =
      (serviceIds injection a).bind fun ids => (serviceIds injection b).map (ids ++ ·) := by
  refine ⟨fun text => existsUnique_itemizes text.toList, fun text items listed => ?_, serviceIds_entries injection,
    serviceIds_join injection⟩
  have ok (ids : List Nat) : serviceIds injection text = .ok ids ↔ List.Forall₂ IsDecimal items ids := by
    rw [← numbers_eq_ok_iff, serviceIds_eq, itemizes_iff.1 listed]
    cases numbers items <;> simp [Except.mapError]
  refine ⟨?_, ok, fun e => ?_⟩
  · simp only [ok]
    exact exists_forall₂_iff
  · have refused : serviceIds injection text = .error e ↔
        ∃ t, numbers items = .error t ∧ e = .configInvalid injection (.badService t) := by
      rw [serviceIds_eq, itemizes_iff.1 listed]
      cases numbers items <;> simp [Except.mapError, eq_comm]
    rw [refused]
    constructor
    · rintro ⟨t, failed, rfl⟩
      obtain ⟨before, token, after, eq, good, bad, rfl⟩ := numbers_eq_error_iff.1 failed
      exact ⟨before, token, after, eq, good, bad, rfl, message_badService injection _⟩
    · rintro ⟨before, token, after, eq, good, bad, rfl, -⟩
      exact ⟨_, numbers_eq_error_iff.2 ⟨before, token, after, eq, good, bad, rfl⟩, rfl⟩

end TraceGate.Filter.ListText
