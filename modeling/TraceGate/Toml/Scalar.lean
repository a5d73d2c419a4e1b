import TraceGate.Toml.Quoted
import TraceGate.Toml.Value

namespace TraceGate.Toml

open Text Reader

def digits (p : Char → Bool) : Reader (List Char) := do
  let c ← satisfy p
  return c :: (← many (satisfy p <|> (do char '_'; satisfy p)))

def spelled {α : Type} (r : Reader α) : Reader (α × List Char) := do
  let before ← get
  let a ← r
  return (a, before.take (before.length - (← get).length))

def sign : Reader Bool := (do char '-'; return true) <|> (do char '+'; return false) <|> pure false

def wholeDigits : Reader (List Char) := do
  if (← peek) == some '0' then
    char '0'
    return ['0']
  digits isDigit

def number (base : Nat) (cs : List Char) : Nat := (Numeral.value? base cs).getD 0

def inRange (n : Int) : Reader Value :=
  if -0x8000000000000000 ≤ n ∧ n < 0x8000000000000000 then return .integer n else failure

def basedInteger (mark : Char) (base : Nat) : Reader Value := do
  char '0'
  char mark
  inRange (number base (← digits fun c => (Numeral.digitIn? base c).isSome))

def decimalInteger : Reader Value := do
  let negative ← sign
  let n := number 10 (← wholeDigits)
  inRange (if negative then -n else n)

def integer : Reader Value :=
  basedInteger 'x' 16 <|> basedInteger 'o' 8 <|> basedInteger 'b' 2 <|> decimalInteger

def infinityBound : Nat := Nat.pow 2 1024 - Nat.pow 2 970

/-- Whether `m * 10 ^ e` rounds to infinity; the digits of `m` and the exponent settle all but the
close cases. -/
def overflows (m : Nat) (e : Int) : Bool :=
  let places : Int := (Numeral.write 10 m).length + e
  if m = 0 ∨ places < 300 then false
  else if places > 310 then true
  else if 0 ≤ e then infinityBound ≤ m * Nat.pow 10 e.toNat
  else infinityBound * Nat.pow 10 (-e).toNat ≤ m

def exponent : Reader Int := do
  discard (satisfy fun c => c == 'e' || c == 'E')
  let negative ← sign
  let n : Int := number 10 (← digits isDigit)
  return if negative then -n else n

def fraction : Reader (List Char) := do
  char '.'
  digits isDigit

def finiteFloat : Reader Unit := do
  let negative ← sign
  let whole ← wholeDigits
  let (places, e) ← (do return ([], ← exponent)) <|>
    (do return (← fraction, (← maybe exponent).getD 0))
  if !negative && overflows (number 10 (whole ++ places)) (e - places.length) then failure

def specialFloat : Reader Unit := do
  discard sign
  word "inf" <|> word "nan"

def float : Reader Value := do
  let (_, literal) ← spelled (finiteFloat <|> specialFloat)
  return .float (String.ofList literal)

def fixed (width lo hi : Nat) : Reader Nat := do
  let n := number 10 (← exactly width isDigit)
  if lo ≤ n ∧ n ≤ hi then return n else failure

def isLeap (year : Nat) : Bool := year % 4 == 0 && (year % 100 != 0 || year % 400 == 0)

def daysIn (year month : Nat) : Nat :=
  if month = 2 then (if isLeap year then 29 else 28)
  else if month ∈ [4, 6, 9, 11] then 30
  else 31

def date : Reader Unit := do
  let year ← fixed 4 0 9999
  char '-'
  let month ← fixed 2 1 12
  char '-'
  discard (fixed 2 1 (daysIn year month))

def time : Reader Unit := do
  discard (fixed 2 0 23)
  char ':'
  discard (fixed 2 0 59)
  char ':'
  discard (fixed 2 0 60)
  discard (maybe (do char '.'; run isDigit))

def offset : Reader Unit :=
  discard (satisfy fun c => c == 'Z' || c == 'z') <|> (do
    discard (satisfy fun c => c == '+' || c == '-')
    discard (fixed 2 0 23)
    char ':'
    discard (fixed 2 0 59))

def dateAndTime : Reader Unit := do
  date
  discard (maybe (do
    discard (satisfy fun c => c == 'T' || c == 't' || c == ' ')
    time
    discard (maybe offset)))

def moment : Reader Value := do
  let (_, literal) ← spelled (dateAndTime <|> time)
  return .moment (String.ofList literal)

def boolean : Reader Value :=
  (do word "true"; return .boolean true) <|> (do word "false"; return .boolean false)

def scalar : Reader Value :=
  .text <$> quoted <|> boolean <|> moment <|> float <|> integer

end TraceGate.Toml
