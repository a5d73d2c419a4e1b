import Mathlib.Data.List.Basic
import Mathlib.Data.List.TakeWhile
import Mathlib.Tactic.SplitIfs
import TraceGate.Text.Utf8

namespace TraceGate.Text.Utf8

variable {b : UInt8} {rest tail : Bytes} {c : Char} {n : Nat}

theorem follow?_eq (b : UInt8) : follow? b =
    if b.toNat < 0x80 then some (0, 0, 0)
    else if b.toNat < 0xC2 then none
    else if b.toNat < 0xE0 then some (1, 0x80, 0xBF)
    else if b.toNat < 0xF0 then some (2, if b.toNat = 0xE0 then 0xA0 else 0x80, if b.toNat = 0xED then 0x9F else 0xBF)
    else if b.toNat ≤ 0xF4 then some (3, if b.toNat = 0xF0 then 0x90 else 0x80, if b.toNat = 0xF4 then 0x8F else 0xBF)
    else none := by
  unfold follow?
  simp only [UInt8.lt_iff_toNat_lt, ← UInt8.toNat_inj, UInt8.reduceToNat]
  split_ifs <;> first | rfl | omega

theorem lead_of_tail (tail : Bytes) {lo hi t : UInt8} (follow : follow? b = some (tail.length + 1, lo, hi)) (low : lo ≤ t) (high : t ≤ hi)
    (tails : ∀ u ∈ tail, isTail u) (rest : Bytes) :
    lead b (t :: tail ++ rest) = (some (scalar b (t :: tail)), tail.length + 1) := by
  have whole : ((tail ++ rest).take tail.length).takeWhile isTail = tail := by
    rw [List.take_left, List.takeWhile_eq_self_iff.2 tails]
  unfold lead
  rw [follow, List.cons_append]
  dsimp only
  rw [if_pos ⟨low, high⟩, whole, if_pos List.length_cons]

theorem lead_eq_some {lo hi : UInt8} {m : Nat} (follow : follow? b = some (m + 1, lo, hi))
    (leads : lead b rest = (some c, n)) : ∃ t tail, n = m + 1 ∧ tail.length = m ∧ rest.take n = t :: tail ∧
      (lo ≤ t ∧ t ≤ hi) ∧ (∀ u ∈ tail, isTail u) ∧ c = scalar b (t :: tail) := by
  unfold lead at leads
  rw [follow] at leads
  cases rest with
  | nil => cases leads
  | cons t more =>
      dsimp only at leads
      split_ifs at leads with range whole
      · cases leads
        have all : (more.take m).takeWhile isTail = more.take m := by
          refine (List.takeWhile_prefix _).eq_of_length_le ?_
          rw [List.length_cons, Nat.add_right_cancel_iff] at whole
          rw [whole, List.length_take]
          exact Nat.min_le_left _ _
        rw [all] at whole ⊢
        exact ⟨t, more.take m, rfl, by simpa using whole, rfl, range, List.takeWhile_eq_self_iff.1 all, rfl⟩
      · cases leads
      · cases leads

theorem lead_ne_some (ill : follow? b = none) : lead b rest ≠ (some c, n) := by
  intro leads
  unfold lead at leads
  rw [ill] at leads
  cases leads

theorem isTail_iff {t : UInt8} : isTail t = true ↔ 0x80 ≤ t.toNat ∧ t.toNat ≤ 0xBF := by
  simp only [isTail, Bool.and_eq_true, decide_eq_true_eq, UInt8.le_iff_toNat_le, UInt8.reduceToNat]

/-- The leading byte, the bytes that follow it and the number of the character, which is no surrogate and would not do
with fewer bytes. -/
inductive Spells : UInt8 → Bytes → Nat → Prop
  | one {b : UInt8} (lead : b.toNat < 0x80) : Spells b [] b.toNat
  | two {b t : UInt8} {v : Nat} (lead : 0xC0 ≤ b.toNat ∧ b.toNat < 0xE0) (second : isTail t)
      (value : v = (b.toNat - 0xC0) * 0x40 + (t.toNat - 0x80)) (long : 0x80 ≤ v) : Spells b [t] v
  | three {b t u : UInt8} {v : Nat} (lead : 0xE0 ≤ b.toNat ∧ b.toNat < 0xF0) (second : isTail t) (third : isTail u)
      (value : v = ((b.toNat - 0xE0) * 0x40 + (t.toNat - 0x80)) * 0x40 + (u.toNat - 0x80)) (long : 0x800 ≤ v)
      (valid : v < 0xD800 ∨ 0xDFFF < v) : Spells b [t, u] v
  | four {b t u w : UInt8} {v : Nat} (lead : 0xF0 ≤ b.toNat ∧ b.toNat < 0xF8) (second : isTail t) (third : isTail u)
      (fourth : isTail w) (value : v = (((b.toNat - 0xF0) * 0x40 + (t.toNat - 0x80)) * 0x40 + (u.toNat - 0x80)) * 0x40 +
        (w.toNat - 0x80)) (long : 0x10000 ≤ v) (valid : v < 0x110000) : Spells b [t, u, w] v

theorem Spells.lead {v : Nat} (spells : Spells b tail v) (rest : Bytes) :
    lead b (tail ++ rest) = (some (Char.ofNat v), tail.length) := by
  cases spells with
  | one lead =>
      unfold Utf8.lead
      rw [follow?_eq, if_pos lead]
      rfl
  | @two t v lead second value long =>
      have range := isTail_iff.1 second
      have follow : follow? b = some (1, 0x80, 0xBF) := by
        rw [follow?_eq, if_neg (by omega), if_neg (by omega), if_pos (by omega)]
      have same : b.toNat % 0x20 * 0x40 + t.toNat % 0x40 = v := by omega
      have leads := lead_of_tail [] follow (UInt8.le_iff_toNat_le.2 range.1) (UInt8.le_iff_toNat_le.2 range.2)
        (by simp) rest
      rw [leads, ← same]
      rfl
  | @three t u v lead second third value long valid =>
      have range := isTail_iff.1 second
      have range' := isTail_iff.1 third
      have follow : follow? b =
          some (2, if b.toNat = 0xE0 then 0xA0 else 0x80, if b.toNat = 0xED then 0x9F else 0xBF) := by
        rw [follow?_eq, if_neg (by omega), if_neg (by omega), if_neg (by omega), if_pos (by omega)]
      have low : (if b.toNat = 0xE0 then 0xA0 else 0x80) ≤ t := by
        split <;> simp only [UInt8.le_iff_toNat_le, UInt8.reduceToNat] <;> omega
      have high : t ≤ if b.toNat = 0xED then 0x9F else 0xBF := by
        split <;> simp only [UInt8.le_iff_toNat_le, UInt8.reduceToNat] <;> omega
      have same : (b.toNat % 0x10 * 0x40 + t.toNat % 0x40) * 0x40 + u.toNat % 0x40 = v := by omega
      have leads := lead_of_tail [u] follow low high (by simpa using third) rest
      rw [leads, ← same]
      rfl
  | @four t u w v lead second third fourth value long valid =>
      have range := isTail_iff.1 second
      have range' := isTail_iff.1 third
      have range'' := isTail_iff.1 fourth
      have follow : follow? b =
          some (3, if b.toNat = 0xF0 then 0x90 else 0x80, if b.toNat = 0xF4 then 0x8F else 0xBF) := by
        rw [follow?_eq, if_neg (by omega), if_neg (by omega), if_neg (by omega), if_neg (by omega), if_pos (by omega)]
      have low : (if b.toNat = 0xF0 then 0x90 else 0x80) ≤ t := by
        split <;> simp only [UInt8.le_iff_toNat_le, UInt8.reduceToNat] <;> omega
      have high : t ≤ if b.toNat = 0xF4 then 0x8F else 0xBF := by
        split <;> simp only [UInt8.le_iff_toNat_le, UInt8.reduceToNat] <;> omega
      have same : ((b.toNat % 0x08 * 0x40 + t.toNat % 0x40) * 0x40 + u.toNat % 0x40) * 0x40 + w.toNat % 0x40 = v := by
        omega
      have leads := lead_of_tail [u, w] follow low high (by simpa using ⟨third, fourth⟩) rest
      rw [leads, ← same]
      rfl

theorem Spells.toNat_ofNat {v : Nat} (spells : Spells b tail v) : (Char.ofNat v).toNat = v := by
  have valid : v.isValidChar := by
    cases spells with
    | one lead => exact Or.inl (by omega)
    | two lead second value long =>
        have range := isTail_iff.1 second
        exact Or.inl (by omega)
    | three lead second third value long valid =>
        have range := isTail_iff.1 second
        have range' := isTail_iff.1 third
        exact valid.imp id fun above => ⟨above, by omega⟩
    | four lead second third fourth value long valid => exact Or.inr ⟨by omega, valid⟩
  rw [Char.ofNat, dif_pos valid]
  rfl

theorem Spells.encode (spells : Spells b tail c.toNat) : String.utf8EncodeChar c = b :: tail := by
  have byte {w : Nat} {t : UInt8} (value : w = t.toNat) : UInt8.ofNat w = t := by
    rw [value, UInt8.ofNat_toNat]
  unfold String.utf8EncodeChar
  rw [show c.val.toNat = c.toNat from rfl]
  generalize c.toNat = v at spells
  cases spells with
  | one lead => rw [if_pos (by omega), byte rfl]
  | @two t v lead second value long =>
      have range := isTail_iff.1 second
      rw [if_neg (by omega), if_pos (by omega), byte (t := b) (by omega), byte (t := t) (by omega)]
  | @three t u v lead second third value long valid =>
      have range := isTail_iff.1 second
      have range' := isTail_iff.1 third
      rw [if_neg (by omega), if_neg (by omega), if_pos (by omega), byte (t := b) (by omega), byte (t := t) (by omega),
        byte (t := u) (by omega)]
  | @four t u w v lead second third fourth value long valid =>
      have range := isTail_iff.1 second
      have range' := isTail_iff.1 third
      have range'' := isTail_iff.1 fourth
      rw [if_neg (by omega), if_neg (by omega), if_neg (by omega), byte (t := b) (by omega), byte (t := t) (by omega),
        byte (t := u) (by omega), byte (t := w) (by omega)]

theorem spells_encode (c : Char) : ∃ b tail, String.utf8EncodeChar c = b :: tail ∧ Spells b tail c.toNat := by
  have valid : c.toNat < 0xD800 ∨ 0xDFFF < c.toNat ∧ c.toNat < 0x110000 := c.valid
  have byte {v : Nat} (small : v < 0x100) : (UInt8.ofNat v).toNat = v := by
    rw [UInt8.toNat_ofNat']
    exact Nat.mod_eq_of_lt small
  have tails (v : Nat) : isTail (UInt8.ofNat (v % 64 + 128)) := by
    rw [isTail_iff, byte (by omega)]
    omega
  unfold String.utf8EncodeChar
  dsimp only
  rw [show c.val.toNat = c.toNat from rfl]
  generalize c.toNat = v at valid
  split_ifs with one two three
  · have spells := @Spells.one (UInt8.ofNat v)
    rw [byte (by omega)] at spells
    exact ⟨_, _, rfl, spells (by omega)⟩
  · have first := byte (show v / 64 % 32 + 192 < 0x100 by omega)
    have second := byte (show v % 64 + 128 < 0x100 by omega)
    exact ⟨_, _, rfl, .two (by omega) (tails _) (by omega) (by omega)⟩
  · have first := byte (show v / 4096 % 16 + 224 < 0x100 by omega)
    have second := byte (show v / 64 % 64 + 128 < 0x100 by omega)
    have third := byte (show v % 64 + 128 < 0x100 by omega)
    exact ⟨_, _, rfl, .three (by omega) (tails _) (tails _) (by omega) (by omega) (by omega)⟩
  · have first := byte (show v / 262144 % 8 + 240 < 0x100 by omega)
    have second := byte (show v / 4096 % 64 + 128 < 0x100 by omega)
    have third := byte (show v / 64 % 64 + 128 < 0x100 by omega)
    have fourth := byte (show v % 64 + 128 < 0x100 by omega)
    exact ⟨_, _, rfl, .four (by omega) (tails _) (tails _) (tails _) (by omega) (by omega) (by omega)⟩

theorem spells_two (first : 0xC2 ≤ b.toNat ∧ b.toNat < 0xE0) (leads : lead b rest = (some c, n)) :
    ∃ v, Spells b (rest.take n) v ∧ c = Char.ofNat v := by
  have follow : follow? b = some (1, 0x80, 0xBF) := by
    rw [follow?_eq, if_neg (by omega), if_neg (by omega), if_pos (by omega)]
  obtain ⟨t, tail, rfl, length, taken, ⟨low, high⟩, -, rfl⟩ := lead_eq_some follow leads
  obtain rfl := List.length_eq_zero_iff.1 length
  simp only [UInt8.le_iff_toNat_le, UInt8.reduceToNat] at low high
  have same : b.toNat % 0x20 * 0x40 + t.toNat % 0x40 = (b.toNat - 0xC0) * 0x40 + (t.toNat - 0x80) := by omega
  exact ⟨_, taken ▸ .two (by omega) (isTail_iff.2 (by omega)) rfl (by omega), congrArg Char.ofNat same⟩

theorem spells_three (first : 0xE0 ≤ b.toNat ∧ b.toNat < 0xF0) (leads : lead b rest = (some c, n)) :
    ∃ v, Spells b (rest.take n) v ∧ c = Char.ofNat v := by
  have follow := follow?_eq b
  rw [if_neg (by omega), if_neg (by omega), if_neg (by omega), if_pos (by omega)] at follow
  obtain ⟨t, tail, rfl, length, taken, ⟨low, high⟩, tails, rfl⟩ := lead_eq_some follow leads
  obtain ⟨u, rfl⟩ := List.length_eq_one_iff.1 length
  have third := isTail_iff.1 (tails u (by simp))
  have low : 0x80 ≤ t.toNat ∧ (b.toNat = 0xE0 → 0xA0 ≤ t.toNat) := by
    split at low <;> simp only [UInt8.le_iff_toNat_le, UInt8.reduceToNat] at low <;> omega
  have high : t.toNat ≤ 0xBF ∧ (b.toNat = 0xED → t.toNat ≤ 0x9F) := by
    split at high <;> simp only [UInt8.le_iff_toNat_le, UInt8.reduceToNat] at high <;> omega
  have same : (b.toNat % 0x10 * 0x40 + t.toNat % 0x40) * 0x40 + u.toNat % 0x40 =
      ((b.toNat - 0xE0) * 0x40 + (t.toNat - 0x80)) * 0x40 + (u.toNat - 0x80) := by omega
  exact ⟨_, taken ▸ .three (by omega) (isTail_iff.2 (by omega)) (isTail_iff.2 third) rfl (by omega) (by omega),
    congrArg Char.ofNat same⟩

theorem spells_four (first : 0xF0 ≤ b.toNat ∧ b.toNat ≤ 0xF4) (leads : lead b rest = (some c, n)) :
    ∃ v, Spells b (rest.take n) v ∧ c = Char.ofNat v := by
  have follow := follow?_eq b
  rw [if_neg (by omega), if_neg (by omega), if_neg (by omega), if_neg (by omega), if_pos (by omega)] at follow
  obtain ⟨t, tail, rfl, length, taken, ⟨low, high⟩, tails, rfl⟩ := lead_eq_some follow leads
  obtain ⟨u, w, rfl⟩ := List.length_eq_two.1 length
  have third := isTail_iff.1 (tails u (by simp))
  have fourth := isTail_iff.1 (tails w (by simp))
  have low : 0x80 ≤ t.toNat ∧ (b.toNat = 0xF0 → 0x90 ≤ t.toNat) := by
    split at low <;> simp only [UInt8.le_iff_toNat_le, UInt8.reduceToNat] at low <;> omega
  have high : t.toNat ≤ 0xBF ∧ (b.toNat = 0xF4 → t.toNat ≤ 0x8F) := by
    split at high <;> simp only [UInt8.le_iff_toNat_le, UInt8.reduceToNat] at high <;> omega
  have same : ((b.toNat % 0x08 * 0x40 + t.toNat % 0x40) * 0x40 + u.toNat % 0x40) * 0x40 + w.toNat % 0x40 =
      (((b.toNat - 0xF0) * 0x40 + (t.toNat - 0x80)) * 0x40 + (u.toNat - 0x80)) * 0x40 + (w.toNat - 0x80) := by omega
  exact ⟨_, taken ▸ .four (by omega) (isTail_iff.2 (by omega)) (isTail_iff.2 third) (isTail_iff.2 fourth) rfl (by omega)
    (by omega), congrArg Char.ofNat same⟩

theorem spells_lead (leads : lead b rest = (some c, n)) : Spells b (rest.take n) c.toNat := by
  obtain ⟨v, spells, rfl⟩ : ∃ v, Spells b (rest.take n) v ∧ c = Char.ofNat v := by
    have follow := follow?_eq b
    split at follow
    · rename_i one
      unfold lead at leads
      rw [follow] at leads
      cases leads
      exact ⟨_, .one one, rfl⟩
    · split at follow
      · exact absurd leads (lead_ne_some follow)
      · split at follow
        · exact spells_two (by omega) leads
        · split at follow
          · exact spells_three (by omega) leads
          · split at follow
            · exact spells_four (by omega) leads
            · exact absurd leads (lead_ne_some follow)
  rwa [spells.toNat_ofNat]

theorem parts_encode (cs : List Char) : parts (encode cs) = cs.map some := by
  induction cs with
  | nil => rw [encode, List.flatMap_nil, parts, List.map_nil]
  | cons c cs ih =>
      obtain ⟨b, tail, bytes, spells⟩ := spells_encode c
      have leads := spells.lead (encode cs)
      rw [c.ofNat_toNat] at leads
      rw [encode, List.flatMap_cons, bytes, List.cons_append, parts]
      change (lead b (tail ++ encode cs)).1 :: parts ((tail ++ encode cs).drop (lead b (tail ++ encode cs)).2) = _
      rw [leads, List.drop_left, ih, List.map_cons]

theorem encode_of_parts {bs : Bytes} {cs : List Char} (well : parts bs = cs.map some) : bs = encode cs := by
  induction bs using parts.induct generalizing cs with
  | case1 =>
      rw [parts] at well
      rw [List.map_eq_nil_iff.1 well.symm]
      rfl
  | case2 b rest ih =>
      rw [parts] at well
      obtain ⟨c, cs, rfl, first, others⟩ := List.map_eq_cons_iff.1 well.symm
      have spells := spells_lead (Prod.ext first.symm rfl : lead b rest = (some c, (lead b rest).2))
      rw [encode, List.flatMap_cons, spells.encode, List.cons_append, ← encode, ← ih others.symm, List.take_append_drop]

theorem mapM_id_eq_some {α : Type} {l : List (Option α)} {as : List α} : l.mapM id = some as ↔ l = as.map some := by
  induction l generalizing as with
  | nil =>
      rw [List.mapM_nil]
      constructor
      · rintro ⟨⟩
        rfl
      · intro eq
        rw [List.map_eq_nil_iff.1 eq.symm]
        rfl
  | cons a l ih =>
      rw [List.mapM_cons]
      constructor
      · intro well
        cases a with
        | none => cases well
        | some a =>
            obtain ⟨_, ⟨⟩, well⟩ := Option.bind_eq_some_iff.1 well
            obtain ⟨others, got, ⟨⟩⟩ := Option.bind_eq_some_iff.1 well
            rw [ih.1 got]
            rfl
      · intro eq
        obtain ⟨a, others, rfl, rfl, rfl⟩ := List.map_eq_cons_iff.1 eq.symm
        rw [ih.2 rfl]
        rfl

theorem decode?_eq_some_iff {bs : Bytes} {cs : List Char} : decode? bs = some cs ↔ bs = encode cs := by
  rw [decode?, mapM_id_eq_some]
  constructor
  · exact encode_of_parts
  · rintro rfl
    exact parts_encode cs

theorem decodeLossy_encode (cs : List Char) : decodeLossy (encode cs) = cs := by
  rw [decodeLossy, parts_encode, List.map_map]
  exact List.map_id cs

end TraceGate.Text.Utf8
