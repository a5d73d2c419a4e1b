import TraceGate.Filter.ListText

namespace TraceGate.Filter

structure Segment where
  name : String
  levelMin : Nat
  levelMax : Nat
  clients : KindSet
  controls : ServiceSet
  injections : Whitelist
deriving DecidableEq, Repr

namespace Segment

def ofLevel (name : String) (level : Nat) (clients : KindSet) (controls : ServiceSet)
    (injections : Whitelist) : Except FilterError Segment :=
  if level ≤ maxLevel then
    .ok { name, levelMin := 0, levelMax := level, clients, controls, injections }
  else .error (.levelOutOfRange level)

def restrictive (name : String) : Segment where
  name
  levelMin := 0
  levelMax := maxLevel
  clients := .standing
  controls := ∅
  injections := .nothing

def permissive (name : String) : Segment where
  name
  levelMin := 0
  levelMax := maxLevel
  clients := .all
  controls := .full
  injections := .all

instance : Membership Nat Segment where
  mem s level := s.levelMin ≤ level ∧ level ≤ s.levelMax

instance (level : Nat) (s : Segment) : Decidable (level ∈ s) :=
  inferInstanceAs (Decidable (s.levelMin ≤ level ∧ level ≤ s.levelMax))

end Segment

end TraceGate.Filter
