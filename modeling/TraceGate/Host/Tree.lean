import TraceGate.SystemError
import TraceGate.Text.Blank
import TraceGate.Text.Utf8

namespace TraceGate.Host

open Text

inductive Entry where
  | file (node : Nat)
  | directory
  | socket (endpoint : Nat)
deriving DecidableEq, Repr

structure Tree where
  entries : List (List String × Entry) := []
deriving DecidableEq, Repr

namespace Tree

def maxName : Nat := 255

def entry? (t : Tree) (place : List String) : Option Entry :=
  if place.isEmpty then some .directory else t.entries.lookup place

def walk (t : Tree) : (place : List String) → List String → Except SystemError (List String)
  | place, [] => .ok place
  | place, name :: rest =>
    match t.entry? place with
    | none => .error .notFound
    | some .directory =>
      if name = "" ∨ name = "." then walk t place rest
      else if name = ".." then walk t place.dropLast rest
      else if (Utf8.encode name.toList).length > maxName then .error .nameTooLong
      else walk t (place ++ [name]) rest
    | some _ => .error .notADirectory

/-- The place that a path leads to, which may be empty if it is in a directory. -/
def locate (t : Tree) (path : String) : Except SystemError (List String) :=
  if path.toList.contains (Char.ofNat 0) then .error .badPath
  else if path = "" then .error .notFound
  else t.walk [] ((pieces '/' path.toList).map String.ofList)

def find (t : Tree) (path : String) : Except SystemError Entry :=
  (t.locate path).bind fun place => match t.entry? place with
    | some e => .ok e
    | none => .error .notFound

def put (t : Tree) (place : List String) (e : Entry) : Tree :=
  ⟨t.entries.filter (·.1 != place) ++ [(place, e)]⟩

def remove (t : Tree) (path : String) : Except SystemError Tree :=
  (t.locate path).bind fun place => match t.entry? place with
    | none => .error .notFound
    | some .directory => .error .isADirectory
    | some _ => .ok ⟨t.entries.filter (·.1 != place)⟩

end Tree

end TraceGate.Host
