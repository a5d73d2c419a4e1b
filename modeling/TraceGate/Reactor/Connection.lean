import TraceGate.Flags
import TraceGate.Kind
import TraceGate.Reactor.Error
import TraceGate.Reactor.Receiver

namespace TraceGate

structure Connection where
  id : Nat
  kind : Kind
  activity : Activity
  wanted : Flags
  /-- None while the connection's handler runs. -/
  receiver : Option Receiver
  /-- The receiver's descriptor as the reactor last saw it. -/
  fd : Option Nat
deriving DecidableEq, Repr

namespace Connection

def new (id : Nat) (kind : Kind) (receiver : Receiver) (wanted : Flags) : Connection where
  id
  kind
  activity := .inactive
  wanted
  receiver := some receiver
  fd := receiver.fd?

abbrev IsActive (c : Connection) : Prop := c.activity = .active

def start (c : Connection) : Connection := { c with activity := .active }

def pause (c : Connection) : Connection := { c with activity := .inactive }

def shut (c : Connection) : Connection :=
  { c with activity := .inactive, fd := none, receiver := c.receiver.map fun _ => .released }

def lend (c : Connection) : Connection := { c with receiver := none }

def hold (c : Connection) (receiver : Receiver) : Connection :=
  { c with receiver := some receiver, fd := receiver.fd? }

end Connection

def idBound : Nat := 0x100000000

/-- The counter of connections. Its low 32 bits are the next number, unless they are zero. -/
structure Ids where
  next : Nat := 1
deriving DecidableEq, Repr

namespace Ids

def startingAt (n : UInt32) : Ids := ⟨if n = 0 then 1 else n.toNat⟩

def take (ids : Ids) : Nat × Ids :=
  if ids.next % idBound = 0 then (1, ⟨ids.next + 2⟩) else (ids.next % idBound, ⟨ids.next + 1⟩)

def takeMany : (n : Nat) → Ids → List Nat
  | 0, _ => []
  | n + 1, ids => ids.take.1 :: takeMany n ids.take.2

end Ids

end TraceGate
