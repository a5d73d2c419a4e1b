import TraceGate.Proofs.Filter.Banks
import TraceGate.Proofs.Filter.Items

namespace TraceGate.Filter

open Text Service

namespace ServiceSet

instance : Union ServiceSet where
  union s t := ⟨s.lower ||| t.lower, s.upper ||| t.upper⟩

variable {s t : ServiceSet} {id : Nat}

theorem mem_union : id ∈ s ∪ t ↔ id ∈ s ∨ id ∈ t := by
  simp only [mem_def, test, Union.union, BitVec.getLsbD_or]
  split
  · simp
  · split <;> simp

theorem Plain.union (plain : s.Plain) (plain' : t.Plain) : (s ∪ t).Plain := by
  constructor <;> intro i set <;> simp only [Union.union, BitVec.getLsbD_or, Bool.or_eq_true] at set
  · exact set.elim (plain.lower i) (plain'.lower i)
  · exact set.elim (plain.upper i) (plain'.upper i)

end ServiceSet

namespace ListText

structure IsList (text : String) : Prop where
  star : ¬IsStar text
  word : ¬IsNone text

def IsHex (token : List Char) (n : Nat) : Prop :=
  ∃ mark numeral, (mark = [] ∨ mark = ['0', 'x'] ∨ mark = ['0', 'X']) ∧ token = mark ++ numeral ∧
    Numeral.Denotes 16 numeral n ∧ n < 2 ^ 32

variable {token cs : List Char} {items : List (List Char)} {n id : Nat} {c : Char} {text a b : String}

theorem unmarked_numeral (denotes : Numeral.Denotes 16 cs n) : unmarked cs = cs := by
  obtain ⟨sign, digits, values, plus, -, rfl, same, -⟩ := denotes
  have digit : ∀ c ∈ sign ++ digits, c ≠ 'x' ∧ c ≠ 'X' := by
    intro c mem
    rcases List.mem_append.1 mem with mem | mem
    · rcases plus with rfl | rfl
      · cases mem
      · rw [List.mem_singleton.1 mem]
        decide
    · have read : Numeral.digitIn? 16 c ∈ values.map some := same ▸ List.mem_map_of_mem mem
      obtain ⟨d, -, digit⟩ := List.mem_map.1 read
      constructor <;> rintro rfl <;> cases digit
  generalize sign ++ digits = cs at digit
  unfold unmarked
  split
  · exact absurd rfl (digit 'x' (by simp)).1
  · exact absurd rfl (digit 'X' (by simp)).2
  · rfl

theorem exists_mark (token : List Char) : ∃ mark, (mark = [] ∨ mark = ['0', 'x'] ∨ mark = ['0', 'X']) ∧
    token = mark ++ unmarked token := by
  unfold unmarked
  split
  · exact ⟨_, Or.inr (Or.inl rfl), rfl⟩
  · exact ⟨_, Or.inr (Or.inr rfl), rfl⟩
  · exact ⟨_, Or.inl rfl, rfl⟩

theorem isHex_iff : IsHex token n ↔ Numeral.Denotes 16 (unmarked token) n ∧ n < 2 ^ 32 := by
  constructor
  · rintro ⟨mark, numeral, mark | mark | mark, rfl, denotes, small⟩ <;> subst mark
    · rw [List.nil_append, unmarked_numeral denotes]
      exact ⟨denotes, small⟩
    · exact ⟨denotes, small⟩
    · exact ⟨denotes, small⟩
  · rintro ⟨denotes, small⟩
    obtain ⟨mark, known, eq⟩ := exists_mark token
    exact ⟨mark, unmarked token, known, eq, denotes, small⟩

theorem small_of_legal (legal : Legal id) : id < 2 ^ 32 := by
  rcases legal with ⟨-, high⟩ | ⟨-, high⟩ <;> omega

theorem lists_iff (list : IsList text) : Lists text token ↔ token ∈ tokens text.toList := by
  rw [← tokens_trim, mem_tokens]
  exact ⟨fun listed => listed.2.2, fun listed => ⟨list.star, list.word, listed⟩⟩

theorem mem_controls_iff (list : IsList text) :
    id ∈ controls text ↔ Legal id ∧ ∃ token ∈ tokens text.toList, IsHex token id := by
  rw [mem_controls]
  refine and_congr_right fun legal => ?_
  rw [or_iff_right list.star]
  simp only [lists_iff list, isHex_iff, small_of_legal legal, and_true]

theorem plain_controls (list : IsList text) : (controls text).Plain := by
  unfold controls
  rcases selection_cases text with ⟨eq, star⟩ | ⟨eq, -, -⟩ | ⟨l, eq, -, -⟩ <;> rw [eq]
  · exact absurd star list.star
  · exact ServiceSet.plain_empty
  · exact ServiceSet.plain_ofList _

theorem controls_congr (list : IsList a) (list' : IsList b)
    (same : ∀ id, Legal id → ((∃ token ∈ tokens a.toList, IsHex token id) ↔ ∃ token ∈ tokens b.toList, IsHex token id)) :
    controls a = controls b := by
  refine (plain_controls list).ext (plain_controls list') fun id => ?_
  rw [mem_controls_iff list, mem_controls_iff list']
  exact and_congr_right (same id)

theorem IsHex.filled (hex : IsHex token n) : token ≠ [] := by
  rintro rfl
  obtain ⟨denotes, -⟩ := isHex_iff.1 hex
  exact (solid_of_denotes denotes).1 rfl

theorem exists_token_iff : (∃ token ∈ tokens cs, IsHex token id) ↔ ∃ piece ∈ pieces ',' cs, IsHex (trim piece) id := by
  constructor
  · rintro ⟨token, mem, hex⟩
    obtain ⟨-, piece, cut, rfl⟩ := mem_tokens.1 mem
    exact ⟨piece, cut, hex⟩
  · rintro ⟨piece, cut, hex⟩
    exact ⟨trim piece, mem_tokens.2 ⟨hex.filled, piece, cut, rfl⟩, hex⟩

/-- From what stands between the commas of one text one comes to what stands between those of another: the order is
changed, something is said again, or with blanks around it, or something that names no service is put in, or any of this
is undone. -/
inductive Alike : List (List Char) → List (List Char) → Prop
  | perm {l m : List (List Char)} (perm : l.Perm m) : Alike l m
  | twice {l : List (List Char)} {piece : List Char} (mem : piece ∈ l) : Alike l (piece :: l)
  | padded {left piece right : List Char} {l : List (List Char)} (left_blank : Blank left) (right_blank : Blank right) :
      Alike (piece :: l) ((left ++ piece ++ right) :: l)
  | idle {l : List (List Char)} {piece : List Char} (idle : ∀ id, IsHex (trim piece) id → ¬Legal id) : Alike l (piece :: l)
  | symm {l m : List (List Char)} (alike : Alike l m) : Alike m l
  | trans {l m k : List (List Char)} (first : Alike l m) (second : Alike m k) : Alike l k

theorem Alike.same {l m : List (List Char)} (alike : Alike l m) (legal : Legal id) :
    (∃ piece ∈ l, IsHex (trim piece) id) ↔ ∃ piece ∈ m, IsHex (trim piece) id := by
  induction alike with
  | perm perm => simp only [perm.mem_iff]
  | twice mem =>
      rw [List.exists_mem_cons_iff]
      exact (or_iff_right_of_imp fun hex => ⟨_, mem, hex⟩).symm
  | padded blank blank' => rw [List.exists_mem_cons_iff, List.exists_mem_cons_iff, trim_padded blank blank']
  | idle idle =>
      rw [List.exists_mem_cons_iff]
      exact (or_iff_right fun hex => idle id hex legal).symm
  | symm _ ih => exact ih.symm
  | trans _ _ ih ih' => exact ih.trans ih'

theorem controls_alike (list : IsList a) (list' : IsList b) (alike : Alike (pieces ',' a.toList) (pieces ',' b.toList)) :
    controls a = controls b := by
  refine controls_congr list list' fun id legal => ?_
  rw [exists_token_iff, exists_token_iff]
  exact alike.same legal

theorem isList_of_comma (mem : ',' ∈ text.toList) : IsList text := by
  have kept : ',' ∈ trim text.toList := by
    obtain ⟨left, right, blank, blank', eq⟩ := exists_padding text.toList
    rw [eq] at mem
    simpa [notMem_of_blank blank, notMem_of_blank blank'] using mem
  constructor
  · intro star
    rw [IsStar] at star
    rw [star] at kept
    revert kept
    decide
  · intro none
    have lowered : ','.toLower ∈ "NONE".toList.map Char.toLower := eq_of_beq none ▸ List.mem_map_of_mem kept
    revert lowered
    decide

theorem controls_join (list : IsList a) (list' : IsList b) : controls (a ++ "," ++ b) = controls a ∪ controls b := by
  have joined : (a ++ "," ++ b).toList = a.toList ++ ',' :: b.toList := by simp
  have both : IsList (a ++ "," ++ b) := isList_of_comma (by simp [joined])
  refine (plain_controls both).ext ((plain_controls list).union (plain_controls list')) fun id => ?_
  rw [ServiceSet.mem_union, mem_controls_iff both, mem_controls_iff list, mem_controls_iff list', joined, tokens_append,
    ← and_or_left]
  simp only [List.mem_append, or_and_right, exists_or]

theorem IsHex.first {rest : List Char} (hex : IsHex (c :: rest) n) : c = '+' ∨ ∃ d, Numeral.digitIn? 16 c = some d := by
  obtain ⟨mark, numeral, known, eq, ⟨sign, digits, values, plus, filled, rfl, same, -⟩, -⟩ := hex
  rcases known with rfl | rfl | rfl
  · rcases plus with rfl | rfl
    · cases digits with
      | nil => exact absurd rfl filled
      | cons d digits =>
          obtain rfl : c = d := List.head_eq_of_cons_eq eq
          cases values with
          | nil => cases same
          | cons v values => exact Or.inr ⟨v, List.head_eq_of_cons_eq same⟩
    · exact Or.inl (List.head_eq_of_cons_eq eq)
  · rw [List.head_eq_of_cons_eq eq]
    exact Or.inr ⟨0, by decide⟩
  · rw [List.head_eq_of_cons_eq eq]
    exact Or.inr ⟨0, by decide⟩

theorem IsHex.isItem (hex : IsHex token n) : IsItem token := by
  obtain ⟨mark, numeral, known, rfl, denotes, -⟩ := hex
  obtain ⟨filled, solid⟩ := solid_of_denotes denotes
  refine isItem_of_forall (by simp [filled]) fun c mem => ?_
  rcases List.mem_append.1 mem with mem | mem
  · have marks : c = '0' ∨ c = 'x' ∨ c = 'X' := by
      rcases known with rfl | rfl | rfl
      · cases mem
      · exact (List.mem_pair.1 mem).imp_right Or.inl
      · exact (List.mem_pair.1 mem).imp_right Or.inr
    rcases marks with rfl | rfl | rfl <;> decide
  · exact solid c mem

theorem IsHex.toLower_ne (hex : IsHex (c :: cs) n) : c ≠ '*' ∧ c.toLower ≠ 'n' := by
  rcases hex.first with rfl | ⟨d, digit⟩
  · decide
  · have digits : ∀ k < 103, (48 ≤ k ∧ k ≤ 57 ∨ 97 ≤ k ∧ k ≤ 102 ∨ 65 ≤ k ∧ k ≤ 70) →
        Char.ofNat k ≠ '*' ∧ (Char.ofNat k).toLower ≠ 'n' := by decide
    have range := digit_range digit
    have other := digits c.toNat (by omega) range
    rwa [Char.ofNat_toNat] at other

theorem isList_of_hex (hex : ∀ token ∈ tokens text.toList, ∃ n, IsHex token n) : IsList text := by
  rw [← tokens_trim] at hex
  constructor
  · intro star
    rw [IsStar] at star
    rw [star] at hex
    obtain ⟨n, hex⟩ := hex ['*'] (by decide)
    exact hex.toLower_ne.1 rfl
  · intro none
    have lowered : (trim text.toList).map Char.toLower = ['n', 'o', 'n', 'e'] := eq_of_beq none
    -- The word is an item of its own, and no number starts with its first letter.
    have solid : ',' ∉ trim text.toList := fun mem => by
      have comma : ','.toLower ∈ ['n', 'o', 'n', 'e'] := lowered ▸ List.mem_map_of_mem mem
      revert comma
      decide
    obtain ⟨c, rest, word, first, -⟩ := List.map_eq_cons_iff.1 lowered
    have item : IsItem (trim text.toList) :=
      ⟨by simp [word], solid, fun _ _ => trim_first, fun _ _ => trim_last⟩
    rw [tokens_of_notMem solid, item.trim_eq, if_neg item.filled, word] at hex
    obtain ⟨n, hex⟩ := hex (c :: rest) (List.mem_singleton_self _)
    exact hex.toLower_ne.2 first

theorem tokens_hex {texts : List String} (hex : ∀ t ∈ texts, ∃ n, IsHex t.toList n) :
    tokens (",".intercalate texts).toList = texts.map String.toList := by
  rw [String.toList_intercalate, show ",".toList = [','] from rfl, tokens_intercalate, List.flatMap_map,
    List.map_eq_flatMap]
  refine List.flatMap_congr fun t mem => ?_
  obtain ⟨n, hex⟩ := hex t mem
  have blank : Blank [] := by simp [Blank]
  have whole := tokens_item blank hex.isItem blank
  simpa using whole

theorem IsHex.unique {m : Nat} (hex : IsHex token n) (hex' : IsHex token m) : n = m :=
  (isHex_iff.1 hex).1.unique (isHex_iff.1 hex').1

theorem controls_written {ids : List Nat} {spell : Nat → String} (hex : ∀ id ∈ ids, IsHex (spell id).toList id) :
    controls (",".intercalate (ids.map spell)) = .ofList ids := by
  have spelled : ∀ t ∈ ids.map spell, ∃ n, IsHex t.toList n := by
    intro t mem
    obtain ⟨id, given, rfl⟩ := List.mem_map.1 mem
    exact ⟨id, hex id given⟩
  have listed := tokens_hex spelled
  have list : IsList (",".intercalate (ids.map spell)) := by
    refine isList_of_hex fun token mem => ?_
    rw [listed] at mem
    obtain ⟨t, written, rfl⟩ := List.mem_map.1 mem
    exact spelled t written
  refine (plain_controls list).ext (ServiceSet.plain_ofList ids) fun id => ?_
  rw [mem_controls_iff list, ServiceSet.mem_ofList, listed]
  refine and_congr_right fun _ => ?_
  constructor
  · rintro ⟨token, mem, hex'⟩
    rw [List.map_map] at mem
    obtain ⟨id', given, rfl⟩ := List.mem_map.1 mem
    rwa [hex'.unique (hex id' given)]
  · exact fun mem => ⟨_, List.mem_map_of_mem (List.mem_map_of_mem mem), hex id mem⟩

theorem isHex_hex {mark : String} (known : mark ∈ ["", "0x", "0X"]) (small : id < 2 ^ 32) :
    IsHex (mark ++ Numeral.hex id).toList id := by
  refine ⟨mark.toList, Numeral.write 16 id, ?_, by simp [Numeral.hex], Numeral.denotes_write (by decide) (by decide) id,
    small⟩
  revert mark
  decide

/-- What a control list allows. -/
theorem controls_denoted :
    (∀ text : String, ∃! items, Itemizes text.toList items) ∧
    (∀ (text : String) items, IsList text → Itemizes text.toList items →
      ∀ id, id ∈ controls text ↔ Legal id ∧ ∃ token ∈ items, IsHex token id) ∧
    (∀ a b : String, IsList a → IsList b → Alike (pieces ',' a.toList) (pieces ',' b.toList) →
      controls a = controls b) ∧
    (∀ a b : String, IsList a → IsList b → controls (a ++ "," ++ b) = controls a ∪ controls b ∧
      ∀ id, id ∈ controls (a ++ "," ++ b) ↔ id ∈ controls a ∨ id ∈ controls b) ∧
    (∀ (ids : List Nat) (spell : Nat → String), (∀ id ∈ ids, Legal id ∧ IsHex (spell id).toList id) →
      ∀ id, id ∈ controls (",".intercalate (ids.map spell)) ↔ id ∈ ids) ∧
    ∀ mark ∈ ["", "0x", "0X"], ∀ id < 2 ^ 32, IsHex (mark ++ Numeral.hex id).toList id := by
  refine ⟨fun text => existsUnique_itemizes text.toList, ?_, ?_, ?_, ?_, ?_⟩
  · intro text items list listed id
    rw [mem_controls_iff list, itemizes_iff.1 listed]
  · exact fun a b list list' alike => controls_alike list list' alike
  · intro a b list list'
    rw [controls_join list list']
    exact ⟨rfl, fun id => ServiceSet.mem_union⟩
  · intro ids spell written id
    rw [controls_written fun id mem => (written id mem).2, ServiceSet.mem_ofList]
    exact and_iff_right_of_imp fun mem => (written id mem).1
  · exact fun mark known id small => isHex_hex known small

theorem first_service_respelled : controls "zz, 1,1" = controls "1" := by
  have list : IsList "1" := ⟨by unfold IsStar; decide, by unfold IsNone; decide⟩
  have blank : Blank [] := by simp [Blank]
  have blank' : Blank [' '] := by simp only [Blank, List.mem_singleton, forall_eq]; decide
  have unread : hexId? (trim ['z', 'z']) = none := by decide
  have idle (id : Nat) (hex : IsHex (trim ['z', 'z']) id) : ¬Legal id := by
    have read : hexId? (trim ['z', 'z']) = some id := Numeral.read?_eq_some_iff.2 (isHex_iff.1 hex)
    rw [unread] at read
    cases read
  have twice : Alike [['1']] [['1'], ['1']] := .twice (List.mem_singleton_self _)
  have padded : Alike [['1'], ['1']] [[' ', '1'], ['1']] := .padded blank' blank
  have alike : Alike [['1']] [['z', 'z'], [' ', '1'], ['1']] := twice.trans (padded.trans (.idle idle))
  exact controls_denoted.2.2.1 "zz, 1,1" "1" (isList_of_comma (by decide)) list alike.symm

end ListText

end TraceGate.Filter
