/-!
# Values of a TOML document

A TOML document is a table. Whether a later line may add to a table depends on how the table came
about, so each table keeps its `Origin`; `Entries.update` follows a path of keys down to a table
and changes it there, if that is allowed.
-/

namespace TraceGate.Toml

inductive Origin where
  /-- Between braces; nothing can be added to it. -/
  | inline
  /-- By a header of its own; dotted keys cannot reach into it. -/
  | header
  /-- On the way to a table that has a header; a header of its own may follow. -/
  | implied
  /-- By a dotted key; more dotted keys may follow. -/
  | dotted
deriving DecidableEq, Repr

inductive Value where
  | text (s : String)
  | integer (n : Int)
  | boolean (b : Bool)
  | float (literal : String)
  | moment (literal : String)
  /-- A `growing` array got its items from headers in double brackets, and may get more. -/
  | array (growing : Bool) (items : List Value)
  | table (origin : Origin) (entries : List (String × Value))
deriving Repr

/-- The keys of a table with their values; no key occurs twice. -/
abbrev Entries := List (String × Value)

namespace Entries

def put (entries : Entries) (key : String) (v : Value) : Entries :=
  if (entries.lookup key).isSome then
    entries.map fun e => if e.1 == key then (key, v) else e
  else entries ++ [(key, v)]

/-- Changes the table at the end of a path. Missing tables on the way are made with the given
origin; where the path meets a growing array, it goes on in the last item. A path of dotted keys
stops at a table that has a header. -/
def update (made : Origin) (change : Origin → Entries → Option Entries) :
    List String → Origin → Entries → Option Entries
  | [], origin, entries => change origin entries
  | key :: path, _, entries =>
    match entries.lookup key with
    | none => (update made change path made []).map fun inner =>
        entries.put key (.table made inner)
    | some (.table .inline _) => none
    | some (.table origin inner) =>
      if made = .dotted ∧ origin = .header then none
      else (update made change path origin inner).map fun inner =>
        entries.put key (.table origin inner)
    | some (.array true items) =>
      match items.getLast? with
      | some (.table origin inner) => (update made change path origin inner).map fun inner =>
          entries.put key (.array true (items.dropLast ++ [.table origin inner]))
      | _ => none
    | some _ => none

def add (key : String) (v : Value) (entries : Entries) : Option Entries :=
  if (entries.lookup key).isSome then none else some (entries.put key v)

def assign (path : List String) (key : String) (v : Value) (origin : Origin) (entries : Entries) :
    Option Entries :=
  update .dotted (fun origin entries =>
    if (origin == .dotted) == path.isEmpty then none else entries.add key v) path origin entries

def openTable (path : List String) (key : String) (entries : Entries) : Option Entries :=
  update .implied (fun _ entries =>
    match entries.lookup key with
    | none => some (entries.put key (.table .header []))
    | some (.table .implied inner) => some (entries.put key (.table .header inner))
    | some _ => none) path .header entries

def openItem (path : List String) (key : String) (entries : Entries) : Option Entries :=
  update .implied (fun _ entries =>
    match entries.lookup key with
    | none => some (entries.put key (.array true [.table .header []]))
    | some (.array true items) =>
      some (entries.put key (.array true (items ++ [.table .header []])))
    | some _ => none) path .header entries

def assignAt (section_ : List String) (path : List String) (key : String) (v : Value)
    (entries : Entries) : Option Entries :=
  update .implied (assign path key v) section_ .header entries

end Entries

end TraceGate.Toml
