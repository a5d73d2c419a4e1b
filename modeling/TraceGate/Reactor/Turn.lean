import TraceGate.Reactor.Dispatch
import TraceGate.Reactor.State
import TraceGate.Reactor.Wait

/-!
# Rounds of dispatch

In a round the reactor waits once and calls the handler of every connection that is ready. While a
handler runs, it holds the receiver of its connection, and may use the reactor as it likes.

What was seen belongs to the connection that had the descriptor during the wait. Before a handler is
called, it is checked that this connection is still there, active and on the same descriptor.
-/

namespace TraceGate

structure Scene (σ : Type) where
  receiver : Receiver
  reactor : Reactor
  state : σ

abbrev Turn (σ : Type) := ExceptT String (StateM (Scene σ))

abbrev Handler (σ : Type) := Nat → Turn σ Unit

namespace Turn

variable {σ α : Type}

def reactor (f : Reactor → α × Reactor) : Turn σ α := do
  let s ← get
  let (a, reactor) := f s.reactor
  set { s with reactor }
  return a

def receiver (f : Receiver → Host → α × Receiver × Host) : Turn σ α := do
  let s ← get
  let (a, receiver, host) := f s.receiver s.reactor.host
  set { s with receiver, reactor := { s.reactor with host } }
  return a

def orFail {ε : Type} (message : ε → String) : Except ε α → Turn σ α
  | .ok a => return a
  | .error e => throw (message e)

end Turn

namespace Reactor

variable {σ : Type}

/-- Puts the receiver back after its connection's handler has run. If the connection is gone, the
receiver goes too; if the descriptor has changed, the table follows. -/
def restore (id : Nat) (receiver : Receiver) (r : Reactor) : Reactor :=
  match r.connection? id with
  | none => r.discard receiver
  | some c =>
    let fd := receiver.fd?
    let r := (r.discardHeld c).update id (·.hold receiver)
    if c.IsActive ∧ c.fd ≠ fd then
      let r := r.unwatchOf c
      match fd.bind fun fd => (r.table.enable fd c.wanted).toOption with
      | some table => { r with table }
      | none => r.update id Connection.pause
    else r

/-- A descriptor on which something was seen, and the connection that had it during the wait. -/
structure Sighting where
  fd : Int
  seen : Flags
  owner : Option Nat
deriving DecidableEq, Repr

def sightings (r : Reactor) : List Sighting :=
  r.table.ready.map fun (fd, flags) => { fd, seen := flags, owner := r.findDescriptor? fd }

def runHandler (handler : Handler σ) (id : Nat) (receiver : Receiver) (r : Reactor) (state : σ) :
    Except String Unit × Reactor × σ :=
  let taken := r.update id Connection.lend
  let (result, scene) := (handler id).run.run { receiver, reactor := taken, state }
  (result, scene.reactor.restore id scene.receiver, scene.state)

def Sighting.target? (s : Sighting) (r : Reactor) : Option Connection :=
  (s.owner.bind r.connection?).filter fun c => c.IsActive ∧ c.fd.map Int.ofNat = some s.fd

def unwatchStray (r : Reactor) (s : Sighting) : Reactor :=
  if s.owner.isNone ∧ (r.findDescriptor? s.fd).isNone then r.unwatch s.fd else r

/-- Deals with a sighting: removes a connection that has failed, or calls its handler. Counts the
calls of handlers. -/
def attend (r : Reactor) (handlers : Kind → Handler σ) (s : Sighting) (state : σ) :
    Except EventError Nat × Reactor × σ :=
  match s.target? r with
  | none => (.ok 0, r.unwatchStray s, state)
  | some c =>
    if Flags.meets s.seen (Flags.failed ||| Flags.notOpen) then
      match r.unregister c.id with
      | (.error e, r) => (.error e, r, state)
      | (.ok (), r) => (.ok 0, r, state)
    else match c.receiver with
      | none => (.ok 0, r, state)
      | some receiver =>
        match r.runHandler (handlers c.kind) c.id receiver state with
        | (.error message, r, state) => (.error (.handler c.kind message), r, state)
        | (.ok (), r, state) => (.ok 1, r, state)

def dispatch (handlers : Kind → Handler σ) :
    List Sighting → (calls : Nat) → Reactor → σ → Except EventError Nat × Reactor × σ
  | [], calls, r, state => (.ok calls, r, state)
  | s :: rest, calls, r, state =>
    match r.attend handlers s state with
    | (.error e, r, state) => (.error e, r, state)
    | (.ok n, r, state) => dispatch handlers rest (calls + n) r state

def round (wait : Wait) (handlers : Kind → Handler σ) (r : Reactor) (state : σ) :
    Except EventError Nat × Reactor × σ :=
  match wait r.host r.table.occupied with
  | .error e => (.error e, r, state)
  | .ok answer =>
    let seen := { r with table := r.table.record answer.seen }
    if answer.ready = 0 then (.ok 0, seen, state)
    else
      dispatch handlers seen.sightings 0 { seen with table := seen.table.clear } state

end Reactor

end TraceGate
