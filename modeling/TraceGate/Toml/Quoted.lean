import TraceGate.Text.Numeral
import TraceGate.Text.Reader

namespace TraceGate.Toml

open Text Reader

def doubleQuote : Char := Char.ofNat 0x22

def singleQuote : Char := Char.ofNat 0x27

def isSpace (c : Char) : Bool := c == ' ' || c == '\t'

def isDigit (c : Char) : Bool := (Numeral.digitIn? 10 c).isSome

def isHexDigit (c : Char) : Bool := (Numeral.digit? c).isSome

def isPlain (c : Char) : Bool := c == '\t' || (' ' ≤ c && c ≠ Char.ofNat 0x7F)

def isBasic (c : Char) : Bool := isPlain c && c ≠ doubleQuote && c ≠ '\\'

def isLiteral (c : Char) : Bool := isPlain c && c ≠ singleQuote

def newline : Reader Unit := char '\n' <|> (do char '\r'; char '\n')

def spaces : Reader Unit := discard (takeWhile isSpace)

def codePoint (digits : Nat) : Reader Char := do
  let cs ← exactly digits isHexDigit
  match Numeral.value? 16 cs with
  | some n => if n.isValidChar then return Char.ofNat n else failure
  | none => failure

def escape : Reader Char := do
  char '\\'
  match ← satisfy fun _ => true with
  | 'b' => return Char.ofNat 0x08
  | 't' => return '\t'
  | 'n' => return '\n'
  | 'f' => return Char.ofNat 0x0C
  | 'r' => return '\r'
  | 'u' => codePoint 4
  | 'U' => codePoint 8
  | c => if c = doubleQuote ∨ c = '\\' then return c else failure

def run (p : Char → Bool) : Reader (List Char) := do
  let cs ← takeWhile p
  if cs.isEmpty then failure else return cs

def basicText : Reader (List Char) := do
  char doubleQuote
  let parts ← many (run isBasic <|> List.singleton <$> escape)
  char doubleQuote
  return parts.flatten

def literalText : Reader (List Char) := do
  char singleQuote
  let cs ← takeWhile isLiteral
  char singleQuote
  return cs

def joinedLines : Reader (List Char) := do
  char '\\'
  spaces
  newline
  discard (many (newline <|> discard (satisfy isSpace)))
  return []

def lineFeed : Reader (List Char) := do
  newline
  return ['\n']

def basicPart : Reader (List Char) :=
  run isBasic <|> joinedLines <|> List.singleton <$> escape <|> lineFeed

def literalPart : Reader (List Char) := run isLiteral <|> lineFeed

def innerQuotes (quote : Char) (part : Reader (List Char)) : Reader (List Char) := do
  let quotes ← takeWhile (· == quote)
  if quotes.length > 2 then failure
  return quotes ++ (← many1 part).flatten

def closingQuotes (quote : Char) : Reader (List Char) := do
  let marks := (← get).takeWhile (· == quote)
  let count := min marks.length 5
  if count < 3 then failure
  modify (·.drop count)
  return List.replicate (count - 3) quote

def manyLines (quote : Char) (part : Reader (List Char)) : Reader (List Char) := do
  discard (exactly 3 (· == quote))
  discard (maybe newline)
  let first ← many part
  let more ← many (innerQuotes quote part)
  return first.flatten ++ more.flatten ++ (← closingQuotes quote)

def quoted : Reader String := String.ofList <$>
  (manyLines doubleQuote basicPart <|> basicText <|> manyLines singleQuote literalPart
    <|> literalText)

def isBare (c : Char) : Bool := c.isAlphanum || c == '_' || c == '-'

def simpleKey : Reader String := String.ofList <$> (run isBare <|> basicText <|> literalText)

def maxKeyParts : Nat := 79

def dottedKey : Reader (List String × String) := do
  let parts ← separated (char '.') (do spaces; let k ← simpleKey; spaces; return k)
  if parts.length > maxKeyParts then failure
  match parts.getLast? with
  | some last => return (parts.dropLast, last)
  | none => failure

end TraceGate.Toml
