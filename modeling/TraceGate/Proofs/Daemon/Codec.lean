import TraceGate.Proofs.Daemon.Frames

namespace TraceGate

namespace Frame

/-- What a format keeps to for the messages that fit into it. -/
structure SelfDelimiting {α ε : Type} (fits : α → Prop) (encode : α → Bytes)
    (decode? : Bytes → Except ε (Option (α × Nat))) : Prop where
  decode_encode : ∀ m, fits m → ∀ s, decode? (encode m ++ s) = .ok (some (m, (encode m).length))
  waits : ∀ m, fits m → ∀ p, p <+: encode m → p ≠ encode m → decode? p = .ok none
  encode_decode : ∀ b m n, decode? b = .ok (some (m, n)) → fits m ∧ n ≤ b.length ∧ encode m = b.take n
  settled : ∀ b, decode? b ≠ .ok none → ∀ s, decode? (b ++ s) = decode? b

variable {α ε : Type} {fits : α → Prop} {encode : α → Bytes} {decode? : Bytes → Except ε (Option (α × Nat))}

theorem SelfDelimiting.of_settled
    (decode_encode : ∀ m, fits m → ∀ s, decode? (encode m ++ s) = .ok (some (m, (encode m).length)))
    (encode_decode : ∀ b m n, decode? b = .ok (some (m, n)) → fits m ∧ n ≤ b.length ∧ encode m = b.take n)
    (settled : ∀ b, decode? b ≠ .ok none → ∀ s, decode? (b ++ s) = decode? b) :
    SelfDelimiting fits encode decode? where
  decode_encode := decode_encode
  waits m fit p part other := by
    by_contra found
    obtain ⟨missing, whole⟩ := part
    have read : decode? p = .ok (some (m, (encode m).length)) := by
      have back := decode_encode m fit []
      rw [List.append_nil] at back
      rw [← settled p found missing, whole, back]
    have long := (encode_decode p m _ read).2.1
    have same : p = encode m := (List.prefix_iff_eq_take.1 ⟨missing, whole⟩).trans (by
      rw [List.take_of_length_le]
      exact long)
    exact other same
  encode_decode := encode_decode
  settled := settled

end Frame

open TraceGate.Frame

namespace Request

variable {b : Bytes} {m : Request} {n : Nat}

theorem encode_decode (read : decode? b = .ok (some (m, n))) :
    m.payload.length ≤ maxPayload ∧ n ≤ b.length ∧ m.encode = b.take n := by
  by_cases whole : headerLength ≤ b.length
  · obtain ⟨service, length, tail, rfl⟩ := exists_header whole
    rw [decode?_header] at read
    split at read
    · cases read
    · rename_i fits
      split at read
      · cases read
      · rename_i present
        cases read
        have taken : (tail.take length.toNat).length = length.toNat := List.length_take_of_le (Nat.not_lt.1 present)
        have start : (header service length).length = headerLength := rfl
        refine ⟨taken.trans_le (Nat.not_lt.1 fits), ?_, ?_⟩
        · rw [List.length_append, start]
          exact Nat.add_le_add_left (Nat.not_lt.1 present) _
        · rw [encode_eq, taken, UInt32.ofNat_toNat, ← start, List.take_length_add_append]
  · rw [Incomplete.decode? (Or.inl (Nat.not_le.1 whole))] at read
    cases read

theorem decode?_append (found : decode? b ≠ .ok none) (s : Bytes) : decode? (b ++ s) = decode? b := by
  by_cases whole : headerLength ≤ b.length
  · obtain ⟨service, length, tail, rfl⟩ := exists_header whole
    rw [List.append_assoc, decode?_header, decode?_header]
    rw [decode?_header] at found
    split
    · rfl
    · rename_i fits
      rw [if_neg fits] at found
      have present : ¬tail.length < length.toNat := fun short => found (if_pos short)
      have later : ¬(tail ++ s).length < length.toNat := by
        rw [List.length_append]
        omega
      rw [if_neg present, if_neg later, List.take_append_of_le_length (Nat.not_lt.1 present)]
  · exact absurd (Incomplete.decode? (Or.inl (Nat.not_le.1 whole))) found

end Request

namespace Response

def header (service : UInt32) (code : UInt8) (length : UInt32) : Bytes :=
  encodeWord service ++ [code] ++ encodeWord length

variable {b : Bytes} {m : Response} {n : Nat}

theorem encode_eq (m : Response) :
    m.encode = header m.service m.status.code (UInt32.ofNat m.payload.length) ++ m.payload := rfl

theorem length_header (service : UInt32) (code : UInt8) (length : UInt32) :
    (header service code length).length = headerLength := rfl

theorem decode?_header (service : UInt32) (code : UInt8) (length : UInt32) (tail : Bytes) :
    decode? (header service code length ++ tail) = match Status.ofCode? code with
      | none => .error (.badStatus (.status code.toNat))
      | some status =>
        if tail.length < length.toNat then .ok none
        else .ok (some (⟨service, status, tail.take length.toNat⟩, headerLength + length.toNat)) := by
  cases known : Status.ofCode? code <;>
    simp only [header, encodeWord, List.cons_append, List.nil_append, decode?, word_encodeWord, known]

theorem exists_header (whole : headerLength ≤ b.length) :
    ∃ service code length tail, b = header service code length ++ tail := by
  unfold headerLength at whole
  match b, whole with
  | s0 :: s1 :: s2 :: s3 :: code :: n0 :: n1 :: n2 :: n3 :: tail, _ =>
    refine ⟨word s0 s1 s2 s3, code, word n0 n1 n2 n3, tail, ?_⟩
    rw [header, encodeWord_word, encodeWord_word]
    rfl

theorem decode?_short (short : b.length < headerLength) : decode? b = .ok none := by
  unfold decode?
  split
  · simp only [List.length_cons, headerLength] at short
    omega
  · rfl

theorem decode_encode (fits : m.payload.length < 2 ^ 32) (s : Bytes) :
    decode? (m.encode ++ s) = .ok (some (m, m.encode.length)) := by
  have length : (UInt32.ofNat m.payload.length).toNat = m.payload.length := UInt32.toNat_ofNat_of_lt' fits
  have size : m.encode.length = headerLength + m.payload.length := by
    rw [encode_eq, List.length_append, length_header]
  rw [size, encode_eq, List.append_assoc, decode?_header, Status.ofCode?_code]
  dsimp only
  rw [length, if_neg (by simp), List.take_left]

theorem encode_decode (read : decode? b = .ok (some (m, n))) :
    m.payload.length < 2 ^ 32 ∧ n ≤ b.length ∧ m.encode = b.take n := by
  by_cases whole : headerLength ≤ b.length
  · obtain ⟨service, code, length, tail, rfl⟩ := exists_header whole
    rw [decode?_header] at read
    split at read
    · cases read
    · rename_i status known
      split at read
      · cases read
      · rename_i present
        cases read
        have taken : (tail.take length.toNat).length = length.toNat := List.length_take_of_le (Nat.not_lt.1 present)
        refine ⟨taken.trans_lt length.toNat_lt, ?_, ?_⟩
        · rw [List.length_append, length_header]
          exact Nat.add_le_add_left (Nat.not_lt.1 present) _
        · rw [encode_eq, taken, UInt32.ofNat_toNat, Status.code_of_ofCode? known, ← length_header service code length,
            List.take_length_add_append]
  · rw [decode?_short (Nat.not_le.1 whole)] at read
    cases read

theorem decode?_append (found : decode? b ≠ .ok none) (s : Bytes) : decode? (b ++ s) = decode? b := by
  by_cases whole : headerLength ≤ b.length
  · obtain ⟨service, code, length, tail, rfl⟩ := exists_header whole
    rw [List.append_assoc, decode?_header, decode?_header]
    rw [decode?_header] at found
    split
    · rfl
    · rename_i status known
      rw [known] at found
      have present : ¬tail.length < length.toNat := fun short => found (if_pos short)
      have later : ¬(tail ++ s).length < length.toNat := by
        rw [List.length_append]
        omega
      rw [if_neg present, if_neg later, List.take_append_of_le_length (Nat.not_lt.1 present)]
  · exact absurd (decode?_short (Nat.not_le.1 whole)) found

end Response

namespace Frame

/-- The lengths of both are written in 32 bits, and a request may not have all the payload that these can tell. -/
theorem frames_selfDelimiting :
    SelfDelimiting (fun m : Request => m.payload.length ≤ maxPayload) Request.encode Request.decode? ∧
      SelfDelimiting (fun m : Response => m.payload.length < 2 ^ 32) Response.encode Response.decode? :=
  ⟨.of_settled (fun _ fits => Request.decode?_encode fits) (fun _ _ _ => Request.encode_decode)
      fun _ => Request.decode?_append,
    .of_settled (fun _ fits => Response.decode_encode fits) (fun _ _ _ => Response.encode_decode)
      fun _ => Response.decode?_append⟩

end Frame

end TraceGate
