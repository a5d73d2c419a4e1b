import TraceGate.Toml.Value

namespace TraceGate.Toml

namespace Value

def text? : Value → Option String
  | text s => some s
  | _ => none

def integer? : Value → Option Int
  | integer n => some n
  | _ => none

def natural? (bound : Nat) (v : Value) : Option Nat :=
  v.integer?.bind fun n => if 0 ≤ n ∧ n < bound then some n.toNat else none

def array? : Value → Option (List Value)
  | array _ items => some items
  | _ => none

def list? {α : Type} (f : Value → Option α) (v : Value) : Option (List α) :=
  v.array?.bind fun items => items.mapM f

end Value

inductive Record where
  | named (entries : Entries)
  | listed (items : List Value)

namespace Record

variable {α : Type}

def of? : Value → Option Record
  | .table _ entries => some (named entries)
  | .array _ items => some (listed items)
  | _ => none

def field? (r : Record) (place : Nat) (name : String) : Option Value :=
  match r with
  | named entries => entries.lookup name
  | listed items => items[place]?

def require (r : Record) (place : Nat) (name : String) (f : Value → Option α) : Option α :=
  (r.field? place name).bind f

def allow (r : Record) (place : Nat) (name : String) (f : Value → Option α) (default : α) :
    Option α :=
  match r.field? place name with
  | none => some default
  | some v => f v

def onlyNames (r : Record) (names : List String) : Bool :=
  match r with
  | named entries => entries.all fun e => names.contains e.1
  | listed _ => true

end Record

end TraceGate.Toml
