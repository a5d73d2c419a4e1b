import Mathlib.Data.Nat.Digits.Defs
import TraceGate.Filter.ListText

namespace TraceGate

namespace Text.Numeral

def Denotes (base : Nat) (cs : List Char) (n : Nat) : Prop :=
  ∃ (sign digits : List Char) (values : List Nat), (sign = [] ∨ sign = ['+']) ∧ digits ≠ [] ∧ cs = sign ++ digits ∧
    digits.map (digitIn? base) = values.map some ∧ n = Nat.ofDigits base values.reverse

variable {base bound v n : Nat} {cs : List Char}

theorem extend?_eq_some_iff : extend? base v cs = some n ↔
    ∃ values : List Nat, cs.map (digitIn? base) = values.map some ∧
      n = base ^ values.length * v + Nat.ofDigits base values.reverse := by
  induction cs generalizing v with
  | nil =>
      constructor
      · rintro ⟨⟩
        exact ⟨[], rfl, by simp⟩
      · rintro ⟨values, same, rfl⟩
        rw [List.map_nil, eq_comm, List.map_eq_nil_iff] at same
        simp [same, extend?]
  | cons c cs ih =>
      have shift : ∀ d (values : List Nat), base ^ values.length * (base * v + d) + Nat.ofDigits base values.reverse =
          base ^ (d :: values).length * v + Nat.ofDigits base (d :: values).reverse := by
        intro d values
        rw [List.reverse_cons, Nat.ofDigits_append, Nat.ofDigits_singleton, List.length_reverse, List.length_cons]
        ring
      unfold extend?
      cases digit : digitIn? base c with
      | none =>
          refine iff_of_false (by simp) ?_
          rintro ⟨values, same, -⟩
          cases values <;> simp [digit] at same
      | some d =>
          dsimp only
          rw [ih]
          constructor
          · rintro ⟨values, same, rfl⟩
            exact ⟨d :: values, by simp [digit, same], shift d values⟩
          · rintro ⟨values, same, rfl⟩
            cases values with
            | nil => simp at same
            | cons d' values =>
                obtain ⟨rfl, rest⟩ : d = d' ∧ cs.map (digitIn? base) = values.map some := by
                  simpa [digit] using same
                exact ⟨values, rest, (shift d values).symm⟩

theorem digitIn?_plus (base : Nat) : digitIn? base '+' = none := by
  have absent : digit? '+' = none := by decide
  rw [digitIn?, absent, Option.filter_none]

theorem eq_sign_append (cs : List Char) : ∃ sign, (sign = [] ∨ sign = ['+']) ∧ cs = sign ++ unsigned cs := by
  unfold unsigned
  split
  · exact ⟨['+'], Or.inr rfl, rfl⟩
  · exact ⟨[], Or.inl rfl, rfl⟩

theorem denotes_iff : Denotes base cs n ↔ value? base (unsigned cs) = some n := by
  have valued : ∀ digits : List Char, value? base digits = some n ↔ digits ≠ [] ∧ ∃ values : List Nat,
      digits.map (digitIn? base) = values.map some ∧ n = Nat.ofDigits base values.reverse := by
    intro digits
    unfold value?
    split
    · simp [*]
    · rw [extend?_eq_some_iff]
      simp [*]
  rw [valued]
  constructor
  · rintro ⟨sign, digits, values, plus, filled, rfl, same, eq⟩
    rcases plus with rfl | rfl
    · -- A run of digits does not begin with a plus sign.
      have kept : unsigned digits = digits := by
        unfold unsigned
        split
        · cases values <;> simp [digitIn?_plus] at same
        · rfl
      rw [List.nil_append, kept]
      exact ⟨filled, values, same, eq⟩
    · exact ⟨filled, values, same, eq⟩
  · rintro ⟨filled, values, same, eq⟩
    obtain ⟨sign, plus, whole⟩ := eq_sign_append cs
    exact ⟨sign, _, values, plus, filled, whole, same, eq⟩

theorem read?_eq_some_iff : read? base bound cs = some n ↔ Denotes base cs n ∧ n < bound := by
  rw [denotes_iff, read?, Option.filter_eq_some_iff]
  simp

theorem Denotes.unique {m : Nat} (denotes : Denotes base cs n) (denotes' : Denotes base cs m) : n = m := by
  rw [denotes_iff] at denotes denotes'
  exact Option.some.inj (denotes.symm.trans denotes')

theorem denotes_write (two : 2 ≤ base) (small : base ≤ 16) (n : Nat) : Denotes base (write base n) n := by
  obtain ⟨values, same, eq⟩ := extend?_eq_some_iff.1 (extend?_write two small n)
  exact ⟨[], write base n, values, Or.inl rfl, write_ne_nil base n, rfl, same, by simpa using eq⟩

end Text.Numeral

namespace Filter

open Text

namespace ServiceSet

variable {s : ServiceSet} {id : Nat} {ids : List Nat}

theorem mem_of_insertAll : id ∈ ids.foldl (fun s id => (s.insert id).toOption.getD s) s ↔
    id ∈ s ∨ Service.Legal id ∧ id ∈ ids := by
  induction ids generalizing s with
  | nil => simp
  | cons a ids ih =>
      rw [List.foldl_cons, ih, List.mem_cons]
      cases inserted : s.insert a with
      | ok t =>
          have legal : Service.Legal a := by
            by_contra illegal
            rw [(insert_eq_error_iff).2 ⟨illegal, rfl⟩] at inserted
            cases inserted
          have member := mem_of_insert (m := id) inserted
          change id ∈ t ∨ _ ↔ _
          rw [member]
          constructor
          · rintro ((old | rfl) | ⟨isLegal, mem⟩)
            · exact Or.inl old
            · exact Or.inr ⟨legal, Or.inl rfl⟩
            · exact Or.inr ⟨isLegal, Or.inr mem⟩
          · rintro (old | ⟨isLegal, same | mem⟩)
            · exact Or.inl (Or.inl old)
            · exact Or.inl (Or.inr same)
            · exact Or.inr ⟨isLegal, mem⟩
      | error e =>
          obtain ⟨illegal, -⟩ := insert_eq_error_iff.1 inserted
          change id ∈ s ∨ _ ↔ _
          constructor
          · rintro (old | ⟨isLegal, mem⟩)
            · exact Or.inl old
            · exact Or.inr ⟨isLegal, Or.inr mem⟩
          · rintro (old | ⟨isLegal, rfl | mem⟩)
            · exact Or.inl old
            · exact absurd isLegal illegal
            · exact Or.inr ⟨isLegal, mem⟩

theorem mem_ofList : id ∈ ofList ids ↔ Service.Legal id ∧ id ∈ ids := by
  rw [ofList, mem_of_insertAll]
  exact or_iff_right not_mem_empty

end ServiceSet

namespace ListText

def IsStar (text : String) : Prop := trim text.toList = ['*']

def IsNone (text : String) : Prop := sameLetters (trim text.toList) "NONE".toList = true

def Lists (text : String) (token : List Char) : Prop :=
  ¬IsStar text ∧ ¬IsNone text ∧ token ≠ [] ∧ ∃ piece ∈ pieces ',' (trim text.toList), trim piece = token

variable {text word : String} {kind : Kind} {id : Nat} {name : String} {token : List Char}

theorem mem_tokens {cs : List Char} : token ∈ tokens cs ↔ token ≠ [] ∧ ∃ piece ∈ pieces ',' cs, trim piece = token := by
  simp [tokens, and_comm]

theorem selection_cases (text : String) :
    selection text = .everything ∧ IsStar text ∨
    selection text = .nothing ∧ ¬IsStar text ∧ (∀ token, ¬Lists text token) ∨
    ∃ l, selection text = .tokens l ∧ ¬IsStar text ∧ ∀ token, Lists text token ↔ token ∈ l := by
  unfold selection
  dsimp only
  split
  · rename_i star
    exact Or.inl ⟨rfl, star⟩
  · rename_i star
    split
    · rename_i nothing
      refine Or.inr (Or.inl ⟨rfl, star, fun token listed => ?_⟩)
      obtain ⟨-, word, filled, piece, mem, rfl⟩ := listed
      rcases nothing with none | blank
      · exact word none
      · rw [blank, pieces, List.mem_singleton] at mem
        exact filled (by rw [mem]; rfl)
    · rename_i word
      rw [not_or] at word
      refine Or.inr (Or.inr ⟨_, rfl, star, fun token => ?_⟩)
      rw [mem_tokens]
      exact ⟨fun listed => listed.2.2, fun filled => ⟨star, word.1, filled⟩⟩

inductive Enables : String → Kind → Prop
  | serial : Enables "Serial" .clientMsgSerial
  | listener : Enables "TCP" .clientConnect
  | client : Enables "TCP" .clientMsgTcp
  | logstorage : Enables "Logstorage" .offlineLogstorage
  | trace : Enables "Trace" .offlineTrace

theorem mem_keyword : kind ∈ (keyword? word).getD ∅ ↔ Enables word kind := by
  constructor
  · intro mem
    unfold keyword? at mem
    split at mem
    · subst word
      obtain rfl : kind = .clientMsgSerial := by simpa [KindSet.ofList] using mem
      exact .serial
    · split at mem
      · subst word
        have either : kind = .clientConnect ∨ kind = .clientMsgTcp := by simpa [KindSet.ofList] using mem
        rcases either with rfl | rfl
        · exact .listener
        · exact .client
      · split at mem
        · subst word
          obtain rfl : kind = .offlineLogstorage := by simpa [KindSet.ofList] using mem
          exact .logstorage
        · split at mem
          · subst word
            obtain rfl : kind = .offlineTrace := by simpa [KindSet.ofList] using mem
            exact .trace
          · simp at mem
  · intro enables
    cases enables <;> decide

theorem mem_addKeywords {words : List (List Char)} {s : KindSet} :
    kind ∈ words.foldl (fun s t => s ∪ (keyword? (String.ofList t)).getD ∅) s ↔
      kind ∈ s ∨ ∃ token ∈ words, Enables (String.ofList token) kind := by
  induction words generalizing s with
  | nil => simp
  | cons t words ih =>
      rw [List.foldl_cons, ih, KindSet.mem_union, mem_keyword]
      simp [or_assoc]

theorem mem_clients : kind ∈ clients text ↔
    kind ∈ KindSet.standing ∨ IsStar text ∨ ∃ token, Lists text token ∧ Enables (String.ofList token) kind := by
  unfold clients
  rcases selection_cases text with ⟨eq, star⟩ | ⟨eq, star, empty⟩ | ⟨l, eq, star, listed⟩ <;> rw [eq]
  · simp [star]
  · simp [star, empty]
  · simp [star, listed, mem_addKeywords]

theorem mem_controls : id ∈ controls text ↔
    Service.Legal id ∧ (IsStar text ∨ ∃ token, Lists text token ∧ Numeral.Denotes 16 (unmarked token) id) := by
  unfold controls
  rcases selection_cases text with ⟨eq, star⟩ | ⟨eq, star, empty⟩ | ⟨l, eq, star, listed⟩ <;> rw [eq] <;> dsimp only
  · simp [star, ServiceSet.mem_full]
  · simp [star, empty, ServiceSet.not_mem_empty]
  · have small : Service.Legal id → id < 0x100000000 := by
      rintro (⟨-, low⟩ | ⟨-, high⟩) <;> omega
    rw [ServiceSet.mem_ofList]
    refine and_congr_right fun legal => ?_
    simp [star, listed, hexId?, Numeral.read?_eq_some_iff, small legal]

theorem injections_eq_all_iff : injections text = .all ↔ IsStar text := by
  unfold injections
  rcases selection_cases text with ⟨eq, star⟩ | ⟨eq, star, empty⟩ | ⟨l, eq, star, listed⟩ <;> rw [eq] <;> simp [star]

theorem mem_spelled : name ∈ (injections text).spelled ↔ Lists text name.toList := by
  unfold injections
  rcases selection_cases text with ⟨eq, star⟩ | ⟨eq, star, empty⟩ | ⟨l, eq, star, listed⟩ <;> rw [eq]
  · refine iff_of_false (by simp [Whitelist.spelled]) fun listed => listed.1 star
  · simp [Whitelist.spelled, empty]
  · rw [listed, Whitelist.spelled, List.mem_map]
    constructor
    · rintro ⟨token, mem, rfl⟩
      rwa [String.toList_ofList]
    · exact fun mem => ⟨_, mem, String.ofList_toList⟩

theorem mem_numbers {l : List (List Char)} {ids : List Nat} (ok : numbers l = .ok ids) :
    id ∈ ids ↔ ∃ token ∈ l, Numeral.Denotes 10 token id := by
  induction l generalizing ids with
  | nil =>
      cases ok
      simp
  | cons t l ih =>
      unfold numbers at ok
      cases read : decimalId? t with
      | none =>
          rw [read] at ok
          cases ok
      | some n =>
          rw [read] at ok
          dsimp only at ok
          obtain ⟨rest, numbers, rfl⟩ : ∃ rest, numbers l = .ok rest ∧ n :: rest = ids := by
            cases tail : numbers l <;> rw [tail] at ok <;> cases ok
            exact ⟨_, rfl, rfl⟩
          obtain ⟨denotes, -⟩ := Numeral.read?_eq_some_iff.1 read
          have same : id = n ↔ Numeral.Denotes 10 t id := by
            constructor
            · rintro rfl
              exact denotes
            · rw [Numeral.denotes_iff] at denotes ⊢
              rw [denotes]
              rintro ⟨⟩
              rfl
          rw [List.mem_cons, ih numbers, same]
          simp

theorem mem_serviceIds {ids : List Nat} (ok : serviceIds name text = .ok ids) :
    id ∈ ids ↔ ∃ piece ∈ pieces ',' text.toList, Numeral.Denotes 10 (trim piece) id := by
  have listed : numbers (tokens text.toList) = .ok ids := by
    unfold serviceIds at ok
    split at ok <;> cases ok
    assumption
  rw [mem_numbers listed]
  constructor
  · rintro ⟨token, mem, denotes⟩
    obtain ⟨-, piece, cut, rfl⟩ := mem_tokens.1 mem
    exact ⟨piece, cut, denotes⟩
  · rintro ⟨piece, mem, denotes⟩
    refine ⟨_, mem_tokens.2 ⟨fun blank => ?_, piece, mem, rfl⟩, denotes⟩
    rw [blank, Numeral.denotes_iff] at denotes
    cases denotes

end ListText

end Filter

end TraceGate
