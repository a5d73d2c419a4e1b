import Mathlib.Data.List.DropRight
import TraceGate.Proofs.Filter.ListText

namespace TraceGate

namespace Text

def Blank (cs : List Char) : Prop := ∀ c ∈ cs, isBlank c = true

variable {sep c : Char} {cs left right piece init rest : List Char}

theorem isBlank_of_dropWhile (rests : cs.dropWhile isBlank = c :: rest) : isBlank c = false := by
  have stops := List.head?_dropWhile_not isBlank cs
  rw [rests] at stops
  exact stops

theorem exists_padding (cs : List Char) : ∃ left right, Blank left ∧ Blank right ∧ cs = left ++ trim cs ++ right := by
  refine ⟨cs.takeWhile isBlank, (cs.dropWhile isBlank).rtakeWhile isBlank, fun c => List.mem_takeWhile_imp,
    fun c => List.mem_rtakeWhile_imp, ?_⟩
  have tail : trim cs ++ (cs.dropWhile isBlank).rtakeWhile isBlank = cs.dropWhile isBlank :=
    List.rdropWhile_append_rtakeWhile
  rw [List.append_assoc, tail, List.takeWhile_append_dropWhile]

theorem trim_append_left (blank : Blank left) (cs : List Char) : trim (left ++ cs) = trim cs := by
  rw [trim, List.dropWhile_append_of_pos blank, trim]

theorem trim_append_right (blank : Blank right) (cs : List Char) : trim (cs ++ right) = trim cs := by
  have reversed : ∀ c ∈ right.reverse, isBlank c = true := fun c mem => blank c (List.mem_reverse.1 mem)
  unfold trim
  rw [List.dropWhile_append]
  split
  · rename_i empty
    rw [List.isEmpty_iff.1 empty, List.dropWhile_eq_nil_iff.2 blank]
  · rw [List.reverse_append, List.dropWhile_append_of_pos reversed]

theorem trim_padded (blank : Blank left) (blank' : Blank right) (cs : List Char) :
    trim (left ++ cs ++ right) = trim cs := by
  rw [trim_append_right blank', trim_append_left blank]

theorem trim_eq_nil_iff : trim cs = [] ↔ Blank cs := by
  constructor
  · intro empty
    obtain ⟨left, right, blank, blank', eq⟩ := exists_padding cs
    rw [empty, List.append_nil] at eq
    intro c mem
    rw [eq, List.mem_append] at mem
    exact mem.elim (blank c) (blank' c)
  · intro blank
    rw [← List.append_nil cs, trim_append_left blank]
    rfl

theorem trim_first (trimmed : trim cs = c :: rest) : isBlank c = false := by
  have tail : trim cs ++ (cs.dropWhile isBlank).rtakeWhile isBlank = cs.dropWhile isBlank :=
    List.rdropWhile_append_rtakeWhile
  rw [trimmed] at tail
  exact isBlank_of_dropWhile tail.symm

theorem trim_last (trimmed : trim cs = init ++ [c]) : isBlank c = false := by
  have reversed := congrArg List.reverse trimmed
  rw [trim, List.reverse_reverse, List.reverse_concat] at reversed
  exact isBlank_of_dropWhile reversed

theorem trim_eq_self (first : ∀ c rest, cs = c :: rest → isBlank c = false)
    (last : ∀ c init, cs = init ++ [c] → isBlank c = false) : trim cs = cs := by
  rcases List.eq_nil_or_concat cs with rfl | ⟨init, l, rfl⟩
  · rfl
  · rw [List.concat_eq_append] at first last ⊢
    have kept : (init ++ [l]).dropWhile isBlank = init ++ [l] := by
      cases start : init ++ [l] with
      | nil => rfl
      | cons c rest => exact List.dropWhile_cons_of_neg (by simp [first c rest start])
    rw [trim, kept, List.reverse_concat, List.dropWhile_cons_of_neg (by simp [last l init rfl]), List.reverse_cons,
      List.reverse_reverse]

theorem pieces_of_notMem (absent : sep ∉ cs) : pieces sep cs = [cs] := by
  induction cs with
  | nil => rfl
  | cons c cs ih =>
      rw [List.mem_cons, not_or] at absent
      rw [pieces, if_neg (Ne.symm absent.1), ih absent.2]

theorem pieces_cons (sep c : Char) (cs : List Char) :
    pieces sep (c :: cs) = if c = sep then [] :: pieces sep cs else (pieces sep cs).modifyHead (c :: ·) := by
  rw [pieces]
  split
  · rfl
  · cases cut : pieces sep cs with
    | nil => exact absurd cut (pieces_ne_nil sep cs)
    | cons w ws => rfl

theorem pieces_append (sep : Char) (cs rest : List Char) :
    pieces sep (cs ++ sep :: rest) = pieces sep cs ++ pieces sep rest := by
  induction cs with
  | nil => rw [List.nil_append, pieces_cons, if_pos rfl, pieces, List.singleton_append]
  | cons c cs ih =>
      rw [List.cons_append, pieces_cons, pieces_cons, ih]
      split
      · rfl
      · cases cut : pieces sep cs with
        | nil => exact absurd cut (pieces_ne_nil sep cs)
        | cons w ws => rfl

theorem separator_induction {P : List Char → Prop} (sep : Char) (whole : ∀ cs, sep ∉ cs → P cs)
    (joined : ∀ cs rest, P cs → P rest → P (cs ++ sep :: rest)) (cs : List Char) : P cs := by
  induction size : cs.length using Nat.strong_induction_on generalizing cs with
  | _ n ih =>
      by_cases present : sep ∈ cs
      · obtain ⟨before, rest, rfl, absent⟩ := List.eq_append_cons_of_mem present
        refine joined before rest (whole before absent) (ih rest.length ?_ rest rfl)
        rw [← size, List.length_append, List.length_cons]
        omega
      · exact whole cs present

end Text

namespace Filter.ListText

open Text

/-- Characters without a comma that are not enclosed in blanks. -/
structure IsItem (cs : List Char) : Prop where
  filled : cs ≠ []
  solid : ',' ∉ cs
  first : ∀ c rest, cs = c :: rest → isBlank c = false
  last : ∀ c init, cs = init ++ [c] → isBlank c = false

inductive Itemizes : List Char → List (List Char) → Prop
  | blank {cs : List Char} (blank : Blank cs) : Itemizes cs []
  | item {left cs right : List Char} (left_blank : Blank left) (item : IsItem cs) (right_blank : Blank right) :
      Itemizes (left ++ cs ++ right) [cs]
  | comma {cs ds : List Char} {l m : List (List Char)} (left : Itemizes cs l) (right : Itemizes ds m) :
      Itemizes (cs ++ ',' :: ds) (l ++ m)

variable {cs left right : List Char} {l : List (List Char)} {text : String}

theorem isItem_of_forall (filled : cs ≠ []) (all : ∀ c ∈ cs, c ≠ ',' ∧ isBlank c = false) : IsItem cs where
  filled
  solid mem := (all _ mem).1 rfl
  first c _ eq := (all c (eq ▸ List.mem_cons_self)).2
  last c _ eq := (all c (eq ▸ List.mem_concat_self)).2

theorem notMem_of_blank (blank : Blank cs) : ',' ∉ cs := fun mem => by
  have solid := blank _ mem
  revert solid
  decide

theorem tokens_of_notMem (absent : ',' ∉ cs) : tokens cs = if trim cs = [] then [] else [trim cs] := by
  rw [tokens, pieces_of_notMem absent]
  split <;> simp [*]

theorem tokens_append (cs ds : List Char) : tokens (cs ++ ',' :: ds) = tokens cs ++ tokens ds := by
  rw [tokens, pieces_append, List.map_append, List.filter_append, tokens, tokens]

theorem tokens_of_blank (blank : Blank cs) : tokens cs = [] := by
  rw [tokens_of_notMem (notMem_of_blank blank), if_pos (trim_eq_nil_iff.2 blank)]

theorem IsItem.trim_eq (item : IsItem cs) : trim cs = cs := trim_eq_self item.first item.last

theorem tokens_item (blank : Blank left) (item : IsItem cs) (blank' : Blank right) :
    tokens (left ++ cs ++ right) = [cs] := by
  have absent : ',' ∉ left ++ cs ++ right := by
    simp [notMem_of_blank blank, item.solid, notMem_of_blank blank']
  rw [tokens_of_notMem absent, trim_padded blank blank', item.trim_eq, if_neg item.filled]

theorem itemizes_tokens (cs : List Char) : Itemizes cs (tokens cs) := by
  induction cs using separator_induction ',' with
  | whole cs absent =>
      rw [tokens_of_notMem absent]
      split
      · rename_i empty
        exact .blank (trim_eq_nil_iff.1 empty)
      · rename_i filled
        obtain ⟨left, right, blank, blank', eq⟩ := exists_padding cs
        have solid : ',' ∉ trim cs := fun mem => absent (by rw [eq]; simp [mem])
        have item := Itemizes.item blank ⟨filled, solid, fun c rest => trim_first, fun c init => trim_last⟩ blank'
        rwa [← eq] at item
  | joined cs ds left right =>
      rw [tokens_append]
      exact .comma left right

theorem itemizes_iff : Itemizes cs l ↔ tokens cs = l := by
  constructor
  · intro lists
    induction lists with
    | blank blank => exact tokens_of_blank blank
    | item blank item blank' => exact tokens_item blank item blank'
    | comma _ _ left right => rw [tokens_append, left, right]
  · rintro rfl
    exact itemizes_tokens cs

theorem existsUnique_itemizes (cs : List Char) : ∃! l, Itemizes cs l :=
  ⟨tokens cs, itemizes_tokens cs, fun _ lists => (itemizes_iff.1 lists).symm⟩

theorem tokens_padded (blank : Blank left) (blank' : Blank right) (cs : List Char) :
    tokens (left ++ cs ++ right) = tokens cs := by
  -- There is no comma in blanks, so they go to the first piece and to the last one.
  have before (cs : List Char) : tokens (left ++ cs) = tokens cs := by
    induction cs using separator_induction ',' with
    | whole cs absent =>
        have absent' : ',' ∉ left ++ cs := by simp [notMem_of_blank blank, absent]
        rw [tokens_of_notMem absent', trim_append_left blank, tokens_of_notMem absent]
    | joined cs ds ih _ => rw [← List.append_assoc, tokens_append, ih, tokens_append]
  have behind (cs : List Char) : tokens (cs ++ right) = tokens cs := by
    induction cs using separator_induction ',' with
    | whole cs absent =>
        have absent' : ',' ∉ cs ++ right := by simp [notMem_of_blank blank', absent]
        rw [tokens_of_notMem absent', trim_append_right blank', tokens_of_notMem absent]
    | joined cs ds _ ih => rw [List.append_assoc, List.cons_append, tokens_append, ih, tokens_append]
  rw [behind, before]

theorem tokens_trim (cs : List Char) : tokens (trim cs) = tokens cs := by
  obtain ⟨left, right, blank, blank', eq⟩ := exists_padding cs
  have padded := tokens_padded blank blank' (trim cs)
  rw [← eq] at padded
  exact padded.symm

theorem tokens_intercalate (texts : List (List Char)) :
    tokens ([','].intercalate texts) = texts.flatMap tokens := by
  induction texts with
  | nil => rfl
  | cons cs texts ih =>
      cases texts with
      | nil => simp [List.intercalate]
      | cons ds texts =>
          have step : [','].intercalate (cs :: ds :: texts) = cs ++ ',' :: [','].intercalate (ds :: texts) := by
            simp [List.intercalate]
          rw [step, tokens_append, ih]
          rfl

theorem digit_range {base d : Nat} {c : Char} (digit : Numeral.digitIn? base c = some d) :
    48 ≤ c.toNat ∧ c.toNat ≤ 57 ∨ 97 ≤ c.toNat ∧ c.toNat ≤ 102 ∨ 65 ≤ c.toNat ∧ c.toNat ≤ 70 := by
  have range : '0' ≤ c ∧ c ≤ '9' ∨ 'a' ≤ c ∧ c ≤ 'f' ∨ 'A' ≤ c ∧ c ≤ 'F' := by
    by_contra none
    rw [not_or, not_or] at none
    simp [Numeral.digitIn?, Numeral.digit?, none] at digit
  simp only [Char.le_def, UInt32.le_iff_toNat_le] at range
  exact range

theorem solid_digit {base d : Nat} {c : Char} (digit : Numeral.digitIn? base c = some d) :
    c ≠ ',' ∧ isBlank c = false := by
  have value := digit_range digit
  constructor
  · rintro rfl
    revert value
    decide
  · rw [isBlank, List.any_eq_false]
    intro r mem
    have outside : r.2 < 48 ∨ 102 < r.1 := by
      revert r
      decide
    rw [Bool.and_eq_true, decide_eq_true_eq, decide_eq_true_eq]
    omega

theorem solid_of_denotes {base n : Nat} (denotes : Numeral.Denotes base cs n) :
    cs ≠ [] ∧ ∀ c ∈ cs, c ≠ ',' ∧ isBlank c = false := by
  obtain ⟨sign, digits, values, plus, filled, rfl, same, -⟩ := denotes
  have all : ∀ c ∈ digits, c ≠ ',' ∧ isBlank c = false := by
    intro c mem
    have read : Numeral.digitIn? base c ∈ values.map some := same ▸ List.mem_map_of_mem mem
    obtain ⟨d, -, digit⟩ := List.mem_map.1 read
    exact solid_digit digit.symm
  refine ⟨by simp [filled], fun c mem => ?_⟩
  rcases List.mem_append.1 mem with mem | mem
  · rcases plus with rfl | rfl
    · cases mem
    · rw [List.mem_singleton.1 mem]
      decide
  · exact all c mem

theorem isItem_of_denotes {base n : Nat} (denotes : Numeral.Denotes base cs n) : IsItem cs :=
  isItem_of_forall (solid_of_denotes denotes).1 (solid_of_denotes denotes).2

end Filter.ListText

end TraceGate
