import TraceGate.Filter.ServiceSet
import TraceGate.Kind
import TraceGate.Text.Blank

/-!
# List texts

The fields `clients`, `control_messages` and `injections` of a filter section are lists in one
grammar: `*` selects everything, `NONE` in any case or a blank text selects nothing, and all else
is a list of tokens with commas between them. Blanks around a token do not belong to it, and blank
tokens are dropped. What a token means depends on the field.
-/

namespace TraceGate.Filter

open Text

inductive Selection where
  | everything
  | nothing
  | tokens (l : List (List Char))
deriving DecidableEq, Repr

inductive Whitelist where
  | all
  | nothing
  | names (l : List String)
deriving DecidableEq, Repr

def Whitelist.spelled : Whitelist → List String
  | names l => l
  | _ => []

namespace ListText

def tokens (cs : List Char) : List (List Char) :=
  ((pieces ',' cs).map trim).filter (· ≠ [])

def selection (text : String) : Selection :=
  let cs := trim text.toList
  if cs = ['*'] then .everything
  else if sameLetters cs "NONE".toList ∨ cs = [] then .nothing
  else .tokens (tokens cs)

def keyword? (word : String) : Option KindSet :=
  if word = "Serial" then some (.ofList [.clientMsgSerial])
  else if word = "TCP" then some (.ofList [.clientConnect, .clientMsgTcp])
  else if word = "Logstorage" then some (.ofList [.offlineLogstorage])
  else if word = "Trace" then some (.ofList [.offlineTrace])
  else none

/-- The kinds that a client list allows: always the standing ones, and those of its keywords.
Unknown words add nothing. -/
def clients (text : String) : KindSet :=
  match selection text with
  | .everything => .all
  | .nothing => .standing
  | .tokens l => l.foldl (fun s t => s ∪ (keyword? (String.ofList t)).getD ∅) .standing

def unmarked : List Char → List Char
  | '0' :: 'x' :: cs => cs
  | '0' :: 'X' :: cs => cs
  | cs => cs

def hexId? (token : List Char) : Option Nat := Numeral.read? 16 0x100000000 (unmarked token)

def controls (text : String) : ServiceSet :=
  match selection text with
  | .everything => .full
  | .nothing => ∅
  | .tokens l => .ofList (l.filterMap hexId?)

def injections (text : String) : Whitelist :=
  match selection text with
  | .everything => .all
  | .nothing => .nothing
  | .tokens l => .names (l.map String.ofList)

def decimalId? (token : List Char) : Option Nat := Numeral.read? 10 0x100000000 token

def numbers : List (List Char) → Except String (List Nat)
  | [] => .ok []
  | t :: l => match decimalId? t with
    | some n => (numbers l).map (n :: ·)
    | none => .error (String.ofList t)

/-- The numbers in a service list, in order. There are no sentinels here: every token counts. -/
def serviceIds (injection text : String) : Except FilterError (List Nat) :=
  match numbers (tokens text.toList) with
  | .ok l => .ok l
  | .error t => .error (.configInvalid injection (.badService t))

end ListText

end TraceGate.Filter
