import Mathlib.Tactic.NormNum
import TraceGate.Daemon.Frame

namespace TraceGate

namespace Frame

theorem toNat_word (a b c d : UInt8) :
    (word a b c d).toNat = a.toNat + 2 ^ 8 * b.toNat + 2 ^ 16 * c.toNat + 2 ^ 24 * d.toNat := by
  have ha := a.toNat_lt
  have hb := b.toNat_lt
  have hc := c.toNat_lt
  have hd := d.toNat_lt
  have shifted (x : UInt8) (k : Nat) (small : 2 ^ k * x.toNat < 2 ^ 32) : x.toNat <<< k % 2 ^ 32 = 2 ^ k * x.toNat := by
    rw [Nat.shiftLeft_eq, Nat.mul_comm, Nat.mod_eq_of_lt small]
  have joined (k low high : Nat) (small : low < 2 ^ k) : low ||| 2 ^ k * high = low + 2 ^ k * high := by
    rw [Nat.or_comm, ← Nat.two_pow_add_eq_or_of_lt small, Nat.add_comm]
  have bits : (word a b c d).toNat = a.toNat ||| b.toNat <<< 8 % 2 ^ 32 ||| c.toNat <<< 16 % 2 ^ 32 |||
      d.toNat <<< 24 % 2 ^ 32 := by
    simp [word]
  rw [bits, shifted b 8 (by omega), shifted c 16 (by omega), shifted d 24 (by omega), joined 8 _ _ ha,
    joined 16 _ _ (by omega), joined 24 _ _ (by omega)]

theorem toNat_byte (n k : UInt32) : (n >>> k).toUInt8.toNat = n.toNat / 2 ^ (k.toNat % 32) % 2 ^ 8 := by
  simp [Nat.shiftRight_eq_div_pow]

theorem word_encodeWord (n : UInt32) :
    word n.toUInt8 (n >>> 8).toUInt8 (n >>> 16).toUInt8 (n >>> 24).toUInt8 = n := by
  have small := n.toNat_lt
  apply UInt32.toNat_inj.1
  rw [toNat_word, UInt32.toNat_toUInt8, toNat_byte, toNat_byte, toNat_byte]
  change n.toNat % 2 ^ 8 + 2 ^ 8 * (n.toNat / 2 ^ 8 % 2 ^ 8) + 2 ^ 16 * (n.toNat / 2 ^ 16 % 2 ^ 8) +
    2 ^ 24 * (n.toNat / 2 ^ 24 % 2 ^ 8) = n.toNat
  omega

theorem encodeWord_word (a b c d : UInt8) : encodeWord (word a b c d) = [a, b, c, d] := by
  have ha := a.toNat_lt
  have hb := b.toNat_lt
  have hc := c.toNat_lt
  have hd := d.toNat_lt
  have whole := toNat_word a b c d
  generalize word a b c d = n at whole
  simp only [encodeWord, List.cons.injEq, and_true, ← UInt8.toNat_inj, toNat_byte, UInt32.toNat_toUInt8 n]
  change n.toNat % 2 ^ 8 = _ ∧ n.toNat / 2 ^ 8 % 2 ^ 8 = _ ∧ n.toNat / 2 ^ 16 % 2 ^ 8 = _ ∧
    n.toNat / 2 ^ 24 % 2 ^ 8 = _
  omega

def header (service length : UInt32) : Bytes := encodeWord service ++ encodeWord length

end Frame

namespace Request

open TraceGate.Frame

/-- The beginning of a frame that may become complete. -/
def Incomplete (bytes : Bytes) : Prop :=
  bytes.length < headerLength ∨ ∃ service length payload, bytes = header service length ++ payload ∧
    length.toNat ≤ maxPayload ∧ payload.length < length.toNat

/-- A header that announces too long a payload, and whatever is behind it. -/
def Oversized (bytes : Bytes) : Prop :=
  ∃ service length tail, bytes = header service length ++ tail ∧ maxPayload < length.toNat

/-- The frames that the bytes start with, and the rest. -/
structure Framed (bytes : Bytes) (requests : List Request) (rest : Bytes) : Prop where
  split : bytes = requests.flatMap encode ++ rest
  fits : ∀ r ∈ requests, r.payload.length ≤ maxPayload
  ends : Incomplete rest ∨ Oversized rest

variable {bytes more rest rest' : Bytes} {r : Request} {requests requests' : List Request}

theorem decode?_header (service length : UInt32) (tail : Bytes) : decode? (header service length ++ tail) =
    if length.toNat > maxPayload then .error (.tooLong length.toNat)
    else if tail.length < length.toNat then .ok none
    else .ok (some (⟨service, tail.take length.toNat⟩, headerLength + length.toNat)) := by
  simp only [header, encodeWord, List.cons_append, List.nil_append, decode?, word_encodeWord]

theorem encode_eq (r : Request) : r.encode = header r.service (UInt32.ofNat r.payload.length) ++ r.payload := rfl

theorem length_encode (r : Request) : r.encode.length = headerLength + r.payload.length := by
  simp only [encode_eq, header, encodeWord, headerLength, List.length_append, List.length_cons, List.length_nil]

theorem toNat_length (fits : r.payload.length ≤ maxPayload) :
    (UInt32.ofNat r.payload.length).toNat = r.payload.length := by
  apply UInt32.toNat_ofNat_of_lt'
  exact fits.trans_lt (by decide)

theorem decode?_encode (fits : r.payload.length ≤ maxPayload) (rest : Bytes) :
    decode? (r.encode ++ rest) = .ok (some (r, r.encode.length)) := by
  rw [length_encode, encode_eq, List.append_assoc, decode?_header, toNat_length fits, if_neg (Nat.not_lt.2 fits),
    if_neg (by simp), List.take_left]

theorem Incomplete.decode? (incomplete : Incomplete bytes) : Request.decode? bytes = .ok none := by
  rcases incomplete with short | ⟨service, length, payload, rfl, fits, short⟩
  · unfold Request.decode?
    split
    · simp only [List.length_cons, headerLength] at short
      omega
    · rfl
  · rw [decode?_header, if_neg (Nat.not_lt.2 fits), if_pos short]

theorem Oversized.decode? (oversized : Oversized bytes) : ∃ fault, Request.decode? bytes = .error fault := by
  obtain ⟨service, length, tail, rfl, long⟩ := oversized
  exact ⟨_, by rw [decode?_header, if_pos long]⟩

theorem Incomplete.not_oversized (incomplete : Incomplete bytes) : ¬Oversized bytes := by
  intro oversized
  obtain ⟨fault, refused⟩ := oversized.decode?
  rw [incomplete.decode?] at refused
  cases refused

theorem exists_header (whole : headerLength ≤ bytes.length) :
    ∃ service length tail, bytes = header service length ++ tail := by
  unfold headerLength at whole
  match bytes, whole with
  | s0 :: s1 :: s2 :: s3 :: n0 :: n1 :: n2 :: n3 :: tail, _ =>
    refine ⟨word s0 s1 s2 s3, word n0 n1 n2 n3, tail, ?_⟩
    rw [header, encodeWord_word, encodeWord_word]
    rfl

theorem exists_framed (bytes : Bytes) : ∃ requests rest, Framed bytes requests rest := by
  induction total : bytes.length using Nat.strong_induction_on generalizing bytes with
  | _ total' ih =>
    subst total
    have alone (ends : Incomplete bytes ∨ Oversized bytes) : ∃ requests rest, Framed bytes requests rest :=
      ⟨[], bytes, rfl, by rintro r ⟨⟩, ends⟩
    by_cases whole : headerLength ≤ bytes.length
    · obtain ⟨service, length, tail, rfl⟩ := exists_header whole
      by_cases long : maxPayload < length.toNat
      · exact alone (Or.inr ⟨service, length, tail, rfl, long⟩)
      · by_cases short : tail.length < length.toNat
        · exact alone (Or.inl (Or.inr ⟨service, length, tail, rfl, Nat.not_lt.1 long, short⟩))
        · let r : Request := ⟨service, tail.take length.toNat⟩
          have taken : r.payload.length = length.toNat := List.length_take_of_le (Nat.not_lt.1 short)
          have frame : header service length ++ tail = r.encode ++ tail.drop length.toNat := by
            rw [encode_eq, taken, UInt32.ofNat_toNat, List.append_assoc, List.take_append_drop]
          obtain ⟨requests, rest, split, fits, ends⟩ := ih _ (by
            rw [frame, List.length_append, length_encode, headerLength]
            omega) (tail.drop length.toNat) rfl
          refine ⟨r :: requests, rest, ?_, ?_, ends⟩
          · rw [frame, List.flatMap_cons, List.append_assoc, ← split]
          · exact List.forall_mem_cons.2 ⟨taken ▸ Nat.not_lt.1 long, fits⟩
    · exact alone (Or.inl (Or.inl (Nat.not_le.1 whole)))

theorem length_le_flatMap_encode (requests : List Request) : requests.length ≤ (requests.flatMap encode).length := by
  induction requests with
  | nil => exact Nat.zero_le _
  | cons request requests ih =>
      rw [List.flatMap_cons, List.length_append, length_encode, headerLength, List.length_cons]
      omega

theorem Framed.length_le (framed : Framed bytes requests rest) : requests.length ≤ bytes.length := by
  rw [framed.split, List.length_append]
  exact (length_le_flatMap_encode requests).trans (Nat.le_add_right _ _)

theorem ends_ne (ends : Incomplete rest ∨ Oversized rest) (fits : r.payload.length ≤ maxPayload) :
    rest ≠ r.encode ++ more := by
  rintro rfl
  have decoded := decode?_encode fits more
  rcases ends with incomplete | oversized
  · rw [incomplete.decode?] at decoded
    cases decoded
  · obtain ⟨fault, refused⟩ := oversized.decode?
    rw [refused] at decoded
    cases decoded

theorem Framed.unique (framed : Framed bytes requests rest) (framed' : Framed bytes requests' rest') :
    requests = requests' ∧ rest = rest' := by
  obtain ⟨split, fits, ends⟩ := framed
  obtain ⟨split', fits', ends'⟩ := framed'
  rw [split] at split'
  clear split
  induction requests generalizing requests' with
  | nil =>
      cases requests' with
      | nil => exact ⟨rfl, split'⟩
      | cons r' requests' =>
          rw [List.flatMap_cons, List.append_assoc] at split'
          exact absurd split' (ends_ne ends (fits' r' List.mem_cons_self))
  | cons r requests ih =>
      rw [List.flatMap_cons, List.append_assoc] at split'
      cases requests' with
      | nil => exact absurd split'.symm (ends_ne ends' (fits r List.mem_cons_self))
      | cons r' requests' =>
          rw [List.flatMap_cons, List.append_assoc] at split'
          have decoded := decode?_encode (fits r List.mem_cons_self) (requests.flatMap encode ++ rest)
          rw [split', decode?_encode (fits' r' List.mem_cons_self)] at decoded
          cases decoded
          obtain ⟨rfl, same⟩ := ih (fun q mem => fits q (List.mem_cons_of_mem _ mem))
            (List.append_cancel_left split') fun q mem => fits' q (List.mem_cons_of_mem _ mem)
          exact ⟨rfl, same⟩

theorem Oversized.append (oversized : Oversized bytes) (more : Bytes) : Oversized (bytes ++ more) := by
  obtain ⟨service, length, tail, rfl, long⟩ := oversized
  exact ⟨service, length, tail ++ more, List.append_assoc _ _ _, long⟩

theorem Framed.append (framed : Framed bytes requests rest) (next : Framed (rest ++ more) requests' rest') :
    Framed (bytes ++ more) (requests ++ requests') rest' where
  split := by
    rw [framed.split, List.append_assoc, next.split, List.flatMap_append, List.append_assoc]
  fits r mem := (List.mem_append.1 mem).elim (framed.fits r) (next.fits r)
  ends := next.ends

theorem Framed.first (framed : Framed bytes requests rest) (whole : Framed (bytes ++ more) requests' rest') :
    requests <+: requests' := by
  obtain ⟨next, last, later⟩ := exists_framed (rest ++ more)
  obtain ⟨rfl, -⟩ := (framed.append later).unique whole
  exact List.prefix_append _ _

theorem Framed.extend (framed : Framed bytes requests rest) (oversized : Oversized rest) (more : Bytes) :
    Framed (bytes ++ more) requests (rest ++ more) :=
  ⟨by rw [framed.split, List.append_assoc], framed.fits, Or.inr (oversized.append more)⟩

end Request

end TraceGate
