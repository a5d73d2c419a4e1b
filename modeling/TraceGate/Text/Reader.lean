namespace TraceGate.Text

abbrev Reader := StateT (List Char) Option

namespace Reader

def peek : Reader (Option Char) := return (← get).head?

def satisfy (p : Char → Bool) : Reader Char := do
  match ← get with
  | [] => failure
  | c :: cs =>
    if p c then
      set cs
      return c
    else failure

def char (c : Char) : Reader Unit := do
  discard (satisfy (· == c))

def word (s : String) : Reader Unit := s.toList.forM char

def takeWhile (p : Char → Bool) : Reader (List Char) :=
  modifyGet fun cs => (cs.takeWhile p, cs.dropWhile p)

def exactly (n : Nat) (p : Char → Bool) : Reader (List Char) := do
  let cs := (← get).take n
  if cs.length = n ∧ cs.all p then
    modify (·.drop n)
    return cs
  else failure

def ended : Reader Unit := do
  if (← get).isEmpty then return else failure

variable {α β : Type}

def maybe (r : Reader α) : Reader (Option α) := (some <$> r) <|> pure none

def collect (r : Reader α) (cs : List Char) : List α × List Char :=
  match r.run cs with
  | none => ([], cs)
  | some (a, rest) =>
    if _h : rest.length < cs.length then
      let (l, rest) := collect r rest
      (a :: l, rest)
    else ([], cs)
termination_by cs.length

def many (r : Reader α) : Reader (List α) := modifyGet (collect r)

def many1 (r : Reader α) : Reader (List α) := do
  let a ← r
  return a :: (← many r)

def separated (sep : Reader β) (r : Reader α) : Reader (List α) := do
  let a ← r
  return a :: (← many (do let _ ← sep; r))

def readAll? (r : Reader α) (text : List Char) : Option α :=
  ((do let a ← r; ended; return a : Reader α).run text).map (·.1)

end Reader

end TraceGate.Text
