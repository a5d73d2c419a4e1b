import TraceGate.Level
import TraceGate.SystemError
import TraceGate.Text.Numeral

namespace TraceGate.Filter

open Text

inductive IdField where
  | app
  | context
  | node
deriving DecidableEq, Repr

def IdField.key : IdField → String
  | app => "app_id"
  | context => "context_id"
  | node => "node_id"

inductive InjectionFault where
  | blank (field : IdField)
  | noServices
  | badService (token : String)
deriving DecidableEq, Repr

def InjectionFault.message : InjectionFault → String
  | blank field => field.key ++ " must not be empty"
  | noServices => "no service ids"
  | badService token => "service id '" ++ token ++ "' is not a decimal integer"

inductive Inconsistency where
  | span (segment : String) (lower upper expected : Nat)
  | chainEnd (last : Nat)
  | unregistered (injection : String)
deriving DecidableEq, Repr

def Inconsistency.message : Inconsistency → String
  | span segment lower upper expected =>
    "segment '" ++ segment ++ "' spans [" ++ Numeral.decimal lower ++ ", " ++ Numeral.decimal upper
      ++ "], expected start " ++ Numeral.decimal expected
  | chainEnd last =>
    "filter chain ends at " ++ Numeral.decimal last ++ ", not " ++ Numeral.decimal maxLevel
  | unregistered injection => "whitelisted injection '" ++ injection ++ "' is not registered"

inductive FilterError where
  | invalidParameter (what : String)
  | serviceIdOutOfRange (id : Nat)
  | levelOutOfRange (level : Int)
  | duplicateLevel (level : Nat)
  | unknownInjection (filter injection : String)
  | configInvalid (injection : String) (fault : InjectionFault)
  | configParse
  | configIo (path : String) (error : SystemError)
  | noSegmentForLevel (level : Nat)
  | internal (cause : Inconsistency)
deriving DecidableEq, Repr

def FilterError.message : FilterError → String
  | invalidParameter what => "Invalid parameter: " ++ what
  | serviceIdOutOfRange id => "Service id 0x" ++ Numeral.hex id ++ " is outside both control banks"
  | levelOutOfRange level =>
    "Filter level " ++ Numeral.signedDecimal level ++ " exceeds maximum "
      ++ Numeral.decimal maxLevel
  | duplicateLevel level => "Two filter segments claim level " ++ Numeral.decimal level
  | unknownInjection filter injection =>
    "Filter '" ++ filter ++ "' references unknown injection '" ++ injection ++ "'"
  | configInvalid injection fault =>
    "Invalid filter configuration: injection '" ++ injection ++ "': " ++ fault.message
  | configParse => "Failed to parse filter configuration"
  | configIo path error =>
    "Failed to read filter configuration " ++ path ++ ": " ++ error.message
  | noSegmentForLevel level => "No filter segment covers level " ++ Numeral.decimal level
  | internal cause => "Internal filter inconsistency: " ++ cause.message

def checkLevel (n : Int) : Except FilterError Nat :=
  match level? n with
  | some level => .ok level
  | none => .error (.levelOutOfRange n)

theorem checkLevel_eq_ok_iff {n : Int} {m : Nat} :
    checkLevel n = .ok m ↔ n = m ∧ m ≤ maxLevel := by
  rw [← level?_eq_some_iff]
  unfold checkLevel
  cases level? n <;> simp

end TraceGate.Filter
