import TraceGate.Kind
import TraceGate.Text.Numeral

namespace TraceGate

open Text

inductive Activity where
  | undefined
  | inactive
  | active
  | deactivateRequested
  | activateRequested
deriving DecidableEq, Repr

def Activity.name : Activity → String
  | undefined => "Undefined"
  | inactive => "Inactive"
  | active => "Active"
  | deactivateRequested => "DeactivateRequested"
  | activateRequested => "ActivateRequested"

inductive Refusal where
  | noDescriptor (fd : Int)
  | alreadyPolled (fd : Int)
  | noEndpoint (kind : Kind)
  | isActive (id : Nat)
  | inDispatch (id : Nat)
deriving DecidableEq, Repr

def connectionName (id : Nat) : String := "#" ++ Numeral.decimal id

def Refusal.message : Refusal → String
  | noDescriptor fd => "cannot poll descriptor " ++ Numeral.signedDecimal fd
  | alreadyPolled fd => "descriptor " ++ Numeral.signedDecimal fd ++ " is already polled"
  | noEndpoint kind => "cannot register " ++ kind.name ++ " connection without an endpoint"
  | isActive id => "connection " ++ connectionName id ++ " is active"
  | inDispatch id => "connection " ++ connectionName id ++ " is being dispatched"

inductive EventError where
  | invalidParameter (refusal : Refusal)
  | connectionNotFound (id : Nat)
  | invalidStatus (id : Nat) (activity : Activity)
  | missingHandler (kind : Kind)
  | outOfMemory
  | waitTooLong (milliseconds : Nat)
  | handler (kind : Kind) (message : String)
deriving DecidableEq, Repr

def EventError.message : EventError → String
  | invalidParameter refusal => "Invalid parameter: " ++ refusal.message
  | connectionNotFound id => "Connection " ++ connectionName id ++ " not found"
  | invalidStatus id activity =>
    "Connection " ++ connectionName id ++ " has unexpected status " ++ activity.name
  | missingHandler kind => "No handler registered for connection type " ++ kind.name
  | outOfMemory =>
    "Out of resources: readiness table growth: memory allocation failed because the memory "
      ++ "allocator returned an error"
  | waitTooLong milliseconds =>
    "Readiness wait failed: timeout " ++ Numeral.secondsOfMillis milliseconds
      ++ ": Passed a positive timeout greater than `i32::MAX` milliseconds."
  | handler kind message => "Handler for " ++ kind.name ++ " failed: " ++ message

end TraceGate
