import TraceGate.Toml.Scalar

namespace TraceGate.Toml

open Text Reader

def comment : Reader Unit := do
  char '#'
  discard (takeWhile isPlain)

def gaps : Reader Unit := do
  spaces
  discard (many (do
    newline <|> (do comment; newline)
    spaces))

def maxDepth : Nat := 79

def array (item : Reader Value) : Reader Value := do
  char '['
  let items ← separated (char ',') (do gaps; let v ← item; gaps; return v) <|> pure []
  unless items.isEmpty do
    discard (maybe (char ','))
  gaps
  char ']'
  return .array false items

def assignment (item : Reader Value) : Reader (List String × String × Value) := do
  let (path, key) ← dottedKey
  char '='
  spaces
  return (path, key, ← item)

def inlineTable (item : Reader Value) : Reader Value := do
  char (Char.ofNat 0x7B)
  let pairs ← separated (char ',') (do let a ← assignment item; spaces; return a) <|> pure []
  spaces
  char (Char.ofNat 0x7D)
  let entries := pairs.foldlM (fun entries (path, key, v) =>
    Entries.assign path key v .header entries) []
  match entries with
  | some entries => return .table .inline entries
  | none => failure

def value : (depth : Nat) → Reader Value
  | 0 => scalar
  | depth + 1 => scalar <|> array (value depth) <|> inlineTable (value depth)

inductive Line where
  | blank
  | table (path : List String) (key : String)
  | item (path : List String) (key : String)
  | assignment (path : List String) (key : String) (v : Value)
deriving Repr

def lineEnd : Reader Unit := do
  spaces
  discard (maybe comment)
  newline <|> ended

def itemHeader : Reader Line := do
  word "[["
  let (path, key) ← dottedKey
  word "]]"
  return .item path key

def tableHeader : Reader Line := do
  char '['
  let (path, key) ← dottedKey
  char ']'
  return .table path key

def content : Reader Line :=
  itemHeader <|> tableHeader <|>
    (do let (path, key, v) ← assignment (value maxDepth); return .assignment path key v)

def line : Reader Line := do
  spaces
  (do let l ← content; lineEnd; return l) <|> (do lineEnd; return .blank)

structure Draft where
  opened : List String := []
  entries : Entries := []

def Draft.add (d : Draft) : Line → Option Draft
  | .blank => some d
  | .table path key => do
    return { opened := path ++ [key], entries := ← d.entries.openTable path key }
  | .item path key => do
    return { opened := path ++ [key], entries := ← d.entries.openItem path key }
  | .assignment path key v => do
    return { d with entries := ← d.entries.assignAt d.opened path key v }

def unmarked (cs : List Char) : List Char :=
  if cs.head? = some (Char.ofNat 0xFEFF) then cs.tail else cs

def read? (text : String) : Option Entries := do
  let lines ← readAll? (many line) (unmarked text.toList)
  return (← lines.foldlM Draft.add {}).entries

end TraceGate.Toml
