import TraceGate.Host.Readiness
import TraceGate.Reactor.Table

namespace TraceGate

structure Answer where
  ready : Nat
  seen : List Flags
deriving DecidableEq, Repr

abbrev Wait := Host → List Slot → Except EventError Answer

def Answer.ofFlags (seen : List Flags) : Answer :=
  ⟨(seen.filter fun f => f != 0).length, seen⟩

def maxWait : Nat := 2147483647

def Host.wait (milliseconds : Nat) : Wait := fun h slots =>
  if milliseconds > maxWait then .error (.waitTooLong milliseconds)
  else .ok (.ofFlags (slots.map fun s => h.readiness s.fd s.wanted))

abbrev Round := List (Int × Flags)

namespace Round

def flagsOf (round : Round) (fd : Int) : Flags :=
  (round.filter fun p => p.1 == fd).foldl (fun f p => f ||| p.2) 0

def wait (round : Round) : Wait := fun _ slots =>
  .ok (.ofFlags (slots.map fun s => round.flagsOf s.fd))

end Round

structure Script where
  rounds : List Round := []
  calls : Nat := 0
deriving DecidableEq, Repr

namespace Script

def push (s : Script) (round : Round) : Script := { s with rounds := s.rounds ++ [round] }

def take (s : Script) : Round × Script :=
  (s.rounds.head?.getD [], ⟨s.rounds.tail, s.calls + 1⟩)

end Script

end TraceGate
