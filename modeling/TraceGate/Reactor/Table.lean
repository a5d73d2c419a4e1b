import TraceGate.Flags
import TraceGate.Reactor.Error

/-!
# The readiness table

The table lists the descriptors to wait for. It keeps slots, of which the first `used` are occupied
and all others hold `Slot.unused`; when every slot is occupied, the next `enable` doubles them, if there is
memory for it.
-/

namespace TraceGate

structure Slot where
  fd : Int
  wanted : Flags
  seen : Flags
deriving DecidableEq, Repr

def Slot.unused : Slot := ⟨-1, 0, 0⟩

structure Table where
  slots : List Slot
  used : Nat
  /-- A table with more slots than this cannot be had; without a number there is always room. -/
  room : Option Nat := none
deriving DecidableEq, Repr

namespace Table

def baseCapacity : Nat := 8

def empty : Table := { slots := List.replicate baseCapacity .unused, used := 0 }

def capacity (t : Table) : Nat := t.slots.length

def occupied (t : Table) : List Slot := t.slots.take t.used

def contains (t : Table) (fd : Int) : Bool := t.occupied.any fun s => s.fd == fd

def grown (t : Table) : List Slot :=
  if t.used = t.slots.length then
    t.slots ++ List.replicate (max 1 t.slots.length) .unused
  else t.slots

def isFull (t : Table) : Bool :=
  t.used = t.slots.length ∧ t.room.any fun room => room < t.grown.length

def enable (t : Table) (fd : Int) (wanted : Flags) : Except EventError Table :=
  if fd < 0 then .error (.invalidParameter (.noDescriptor fd))
  else if t.contains fd then .error (.invalidParameter (.alreadyPolled fd))
  else if t.isFull then .error .outOfMemory
  else .ok { t with slots := t.grown.set t.used ⟨fd, wanted, 0⟩, used := t.used + 1 }

/-- Stops watching a descriptor: later slots move up and the last occupied one becomes free. Says
whether the descriptor was watched. -/
def disable (t : Table) (fd : Int) : Bool × Table :=
  match t.occupied.findIdx? fun s => s.fd == fd with
  | none => (false, t)
  | some i => (true, { t with slots := (t.slots.eraseIdx i).insertIdx (t.used - 1) .unused,
                              used := t.used - 1 })

def ready (t : Table) : List (Int × Flags) :=
  (t.occupied.filter fun s => s.seen != 0).map fun s => (s.fd, s.seen)

def mapOccupied (t : Table) (f : Slot → Slot) : Table :=
  { t with slots := t.occupied.map f ++ t.slots.drop t.used }

def clear (t : Table) : Table := t.mapOccupied ({ · with seen := 0 })

def record (t : Table) (seen : List Flags) : Table :=
  { t with slots := t.occupied.zipWith (fun s f => { s with seen := f })
             (seen ++ List.replicate t.used 0) ++ t.slots.drop t.used }

end Table

end TraceGate
