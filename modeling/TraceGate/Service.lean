namespace TraceGate

namespace Service

def injectionBase : Nat := 0xFFF

def setFilterLevel : Nat := 0xF0A

def getFilterStatus : Nat := 0xF0B

abbrev InLowerBank (id : Nat) : Prop := 0x01 ≤ id ∧ id ≤ 0x20

abbrev InUpperBank (id : Nat) : Prop := 0xF01 ≤ id ∧ id ≤ 0xF0B

abbrev Legal (id : Nat) : Prop := InLowerBank id ∨ InUpperBank id

def legalIds : List Nat :=
  List.range' 0x01 0x20 ++ List.range' 0xF01 0x0B

def isInjection (id : Nat) : Bool := injectionBase ≤ id

end Service

inductive Status where
  | ok
  | notSupported
  | error
  | permDenied
deriving DecidableEq, Repr

namespace Status

def code : Status → UInt8
  | ok => 0
  | notSupported => 1
  | error => 2
  | permDenied => 3

def ofCode? (b : UInt8) : Option Status :=
  [ok, notSupported, error, permDenied].find? fun s => s.code == b

theorem ofCode?_code (s : Status) : ofCode? s.code = some s := by cases s <;> rfl

theorem code_of_ofCode? {b : UInt8} {s : Status} (h : ofCode? b = some s) : s.code = b := by
  have := List.find?_some h
  simpa using this

end Status

inductive UnknownCode where
  | kind (index : Nat)
  | status (code : Nat)
deriving DecidableEq, Repr

def UnknownCode.message : UnknownCode → String
  | kind n => s!"unknown connection type index: {n}"
  | status n => s!"unknown service response status: {n}"

end TraceGate
