/-!
# UTF-8

`parts` cuts a byte string into well-formed characters and maximal ill-formed parts. Reading
strictly asks for no ill-formed part; reading leniently puts one replacement character for each.
-/

namespace TraceGate

abbrev Bytes := List UInt8

namespace Text.Utf8

def encode (cs : List Char) : Bytes := cs.flatMap String.utf8EncodeChar

def isTail (b : UInt8) : Bool := 0x80 ≤ b && b ≤ 0xBF

def follow? (b : UInt8) : Option (Nat × UInt8 × UInt8) :=
  if b < 0x80 then some (0, 0, 0)
  else if b < 0xC2 then none
  else if b < 0xE0 then some (1, 0x80, 0xBF)
  else if b = 0xE0 then some (2, 0xA0, 0xBF)
  else if b = 0xED then some (2, 0x80, 0x9F)
  else if b < 0xF0 then some (2, 0x80, 0xBF)
  else if b = 0xF0 then some (3, 0x90, 0xBF)
  else if b < 0xF4 then some (3, 0x80, 0xBF)
  else if b = 0xF4 then some (3, 0x80, 0x8F)
  else none

def scalar (b : UInt8) (tail : Bytes) : Char :=
  let lead := match tail.length with
    | 0 => b.toNat
    | 1 => b.toNat % 0x20
    | 2 => b.toNat % 0x10
    | _ => b.toNat % 0x08
  Char.ofNat (tail.foldl (fun v t => v * 0x40 + t.toNat % 0x40) lead)

def lead (b : UInt8) (rest : Bytes) : Option Char × Nat :=
  match follow? b with
  | none => (none, 0)
  | some (0, _, _) => (some (scalar b []), 0)
  | some (n + 1, lo, hi) =>
    match rest with
    | [] => (none, 0)
    | c :: more =>
      if lo ≤ c ∧ c ≤ hi then
        let tail := c :: (more.take n).takeWhile isTail
        if tail.length = n + 1 then (some (scalar b tail), n + 1) else (none, tail.length)
      else (none, 0)

def parts : Bytes → List (Option Char)
  | [] => []
  | b :: rest => (lead b rest).1 :: parts (rest.drop (lead b rest).2)
termination_by bs => bs.length
decreasing_by simp only [List.length_drop, List.length_cons]; omega

def decode? (bs : Bytes) : Option (List Char) := (parts bs).mapM id

def decodeLossy (bs : Bytes) : List Char := (parts bs).map fun c => c.getD (Char.ofNat 0xFFFD)

end Text.Utf8

end TraceGate
