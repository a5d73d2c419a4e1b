import TraceGate.Text.Numeral

/-!
# Internet addresses

Addresses of both families, their text and its reading. An address of the second family is written
in its canonical form: lower case, no leading zeros, and the first longest run of at least two zero
groups replaced by two colons; an address that embeds one of the first family ends in that one.

Reading takes groups from the left as long as they go: `Groups` is what was read of one side of the
two colons, with the rest of the text.
-/

namespace TraceGate.Net

open Text

inductive Address where
  | v4 (a b c d : UInt8)
  | v6 (groups : Vector UInt16 8)
deriving DecidableEq, Repr

namespace Address

def unspecified : Address := .v4 0 0 0 0

/-- Reads digits of a base at the front: at most `most` of them, with a value below `bound`.
Returns the value, how many digits there were and the rest; too many digits are no number. -/
def readNumber (base most bound : Nat) (cs : List Char) : Option (Nat × Nat × List Char) :=
  let run := cs.takeWhile fun c => (Numeral.digitIn? base c).isSome
  if run.length > most then none
  else (Numeral.value? base run).bind fun n =>
    if n < bound then some (n, run.length, cs.drop run.length) else none

def readByte (cs : List Char) : Option (UInt8 × List Char) :=
  (readNumber 10 3 256 cs).bind fun (n, digits, rest) =>
    if digits > 1 ∧ cs.head? = some '0' then none else some (UInt8.ofNat n, rest)

def expect (c : Char) : List Char → Option (List Char)
  | d :: cs => if d = c then some cs else none
  | [] => none

def readV4 (cs : List Char) : Option ((UInt8 × UInt8 × UInt8 × UInt8) × List Char) := do
  let (a, cs) ← readByte cs
  let (b, cs) ← readByte (← expect '.' cs)
  let (c, cs) ← readByte (← expect '.' cs)
  let (d, cs) ← readByte (← expect '.' cs)
  return ((a, b, c, d), cs)

structure Groups where
  groups : List UInt16 := []
  endsInV4 : Bool := false
  rest : List Char

def join (hi lo : UInt8) : UInt16 := hi.toUInt16 * 256 + lo.toUInt16

/-- Reads up to `room` groups with colons between them; four bytes count as two groups and end the
row. The colon is part of the group after it, so one that no group follows is not taken. -/
def readGroups : (room : Nat) → (first : Bool) → List Char → Groups
  | 0, _, cs => { rest := cs }
  | room + 1, first, cs =>
    match (if first then some cs else expect ':' cs) with
    | none => { rest := cs }
    | some body =>
      match (if room = 0 then none else readV4 body) with
      | some ((a, b, c, d), rest) => { groups := [join a b, join c d], endsInV4 := true, rest }
      | none =>
        match readNumber 16 4 0x10000 body with
        | some (n, _, rest) =>
          let more := readGroups room false rest
          { more with groups := UInt16.ofNat n :: more.groups }
        | none => { rest := cs }

def fillGroups (left right : List UInt16) : Option (Vector UInt16 8) :=
  let l := left ++ List.replicate (8 - left.length - right.length) 0 ++ right
  if h : l.length = 8 then some ⟨l.toArray, by simp [h]⟩ else none

def readV6 (cs : List Char) : Option (Vector UInt16 8 × List Char) :=
  let left := readGroups 8 true cs
  if left.groups.length = 8 then (fillGroups left.groups []).map (·, left.rest)
  else if left.endsInV4 then none
  else match left.rest with
    | ':' :: ':' :: cs =>
      let right := readGroups (7 - left.groups.length) true cs
      (fillGroups left.groups right.groups).map (·, right.rest)
    | _ => none

def read? (text : String) : Option Address :=
  let cs := text.toList
  match readV4 cs with
  | some ((a, b, c, d), rest) => if rest = [] then some (.v4 a b c d) else none
  | none => (readV6 cs).bind fun (groups, rest) => if rest = [] then some (.v6 groups) else none

def writeV4 (a b c d : UInt8) : String :=
  ".".intercalate ([a, b, c, d].map fun n => Numeral.decimal n.toNat)

def zeroRun (l : List UInt16) : Nat := (l.takeWhile (· == 0)).length

/-- Start and length of the first longest run of zeros, with start counted from `at`. -/
def longestRun : (start : Nat) → List UInt16 → Nat × Nat
  | start, [] => (start, 0)
  | start, g :: l =>
    let here := zeroRun (g :: l)
    let later := longestRun (start + 1) l
    if here ≥ later.2 ∧ here > 0 then (start, here) else later

def writeGroups (l : List UInt16) : String := ":".intercalate (l.map fun g => Numeral.hex g.toNat)

def writeV6 (groups : List UInt16) : String :=
  match groups with
  | [0, 0, 0, 0, 0, 0xFFFF, hi, lo] =>
    "::ffff:" ++ writeV4 (hi / 256).toUInt8 (hi % 256).toUInt8 (lo / 256).toUInt8 (lo % 256).toUInt8
  | l =>
    let (start, length) := longestRun 0 l
    if length > 1 then
      writeGroups (l.take start) ++ "::" ++ writeGroups (l.drop (start + length))
    else writeGroups l

def toString : Address → String
  | .v4 a b c d => writeV4 a b c d
  | .v6 groups => writeV6 groups.toList

def withPort (a : Address) (port : Nat) : String :=
  match a with
  | .v4 _ _ _ _ => a.toString ++ ":" ++ Numeral.decimal port
  | .v6 _ => "[" ++ a.toString ++ "]:" ++ Numeral.decimal port

end Address

end TraceGate.Net
