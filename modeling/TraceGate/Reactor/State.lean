import TraceGate.Reactor.Connection
import TraceGate.Reactor.Table

/-!
# The reactor

A reactor owns connections and the table of the descriptors it waits for. A policy says which kinds
of connections may be active; `checkActivate` is the only way from the policy to the table.

| activity | allowed, and to be activated | otherwise |
|---|---|---|
| inactive | the descriptor is watched, the connection becomes active | nothing |
| active | nothing | the descriptor is not watched, the connection becomes inactive |
| any other | an error | an error |

Deactivating a client listener closes its socket as well.

Operations take the reactor and return the answer with the reactor after them. If several
connections had one id, the first would stand for it.
-/

namespace TraceGate

inductive Transition where
  | activate
  | deactivate
deriving DecidableEq, Repr

structure Reactor where
  host : Host := {}
  table : Table := .empty
  connections : List Connection := []
  ids : Ids := {}
  counts : Vector Nat 15 := Vector.replicate 15 0

def updateFirst {α : Type} (p : α → Bool) (f : α → α) : List α → List α
  | [] => []
  | a :: l => if p a then f a :: l else a :: updateFirst p f l

namespace Reactor

def connection? (r : Reactor) (id : Nat) : Option Connection :=
  r.connections.find? fun c => c.id == id

def findDescriptor? (r : Reactor) (fd : Int) : Option Nat :=
  (r.connections.find? fun c => c.fd.any fun (n : Nat) => (n : Int) == fd).map (·.id)

def findKind? (r : Reactor) (kind : Kind) : Option Nat :=
  (r.connections.find? fun c => c.kind == kind).map (·.id)

def idsOf (r : Reactor) (kinds : KindSet) : List Nat :=
  (r.connections.filter fun c => c.kind ∈ kinds).map (·.id)

def count (r : Reactor) (kind : Kind) : Nat := r.counts.get ⟨kind.index, kind.index_lt⟩

def update (r : Reactor) (id : Nat) (f : Connection → Connection) : Reactor :=
  { r with connections := updateFirst (fun c => c.id == id) f r.connections }

def setCount (r : Reactor) (kind : Kind) (n : Nat) : Reactor :=
  { r with counts := r.counts.set kind.index n kind.index_lt }

def unwatch (r : Reactor) (fd : Int) : Reactor := { r with table := (r.table.disable fd).2 }

def discard (r : Reactor) (receiver : Receiver) : Reactor :=
  { r with host := receiver.drop r.host }

def discardHeld (r : Reactor) (c : Connection) : Reactor :=
  r.discard (c.receiver.getD .released)

def unwatchOf (r : Reactor) (c : Connection) : Reactor :=
  match c.fd with
  | some fd => r.unwatch fd
  | none => r

def deactivate (r : Reactor) (c : Connection) : Reactor :=
  let r := r.unwatchOf c
  if c.kind = .clientConnect then (r.discardHeld c).update c.id Connection.shut
  else r.update c.id Connection.pause

def activate (r : Reactor) (c : Connection) : Except EventError Unit × Reactor :=
  match c.fd with
  | none => (.ok (), r)
  | some fd =>
    match r.table.enable fd c.wanted with
    | .error e => (.error e, r)
    | .ok table => (.ok (), { r with table }.update c.id Connection.start)

def checkActivate (id : Nat) (policy : KindSet) (transition : Transition) (r : Reactor) :
    Except EventError Unit × Reactor :=
  match r.connection? id with
  | none => (.error (.connectionNotFound id), r)
  | some c =>
    let wanted : Bool := c.kind ∈ policy ∧ transition = .activate
    match c.activity with
    | .active => (.ok (), if wanted then r else r.deactivate c)
    | .inactive => if wanted then r.activate c else (.ok (), r)
    | other => (.error (.invalidStatus id other), r)

def checkAll (policy : KindSet) : List Nat → Reactor → Except EventError Unit × Reactor
  | [], r => (.ok (), r)
  | id :: ids, r =>
    match r.checkActivate id policy .activate with
    | (.ok (), r) => checkAll policy ids r
    | (.error e, r) => (.error e, r)

def reconcile (policy kinds : KindSet) (r : Reactor) : Except EventError Unit × Reactor :=
  r.checkAll policy (r.idsOf kinds)

def add (r : Reactor) (c : Connection) : Reactor :=
  { r.setCount c.kind (r.count c.kind + 1) with connections := r.connections ++ [c] }

def remove (r : Reactor) (c : Connection) : Reactor :=
  { (r.discardHeld c).setCount c.kind (r.count c.kind - 1) with
    connections := r.connections.eraseP fun d => d.id == c.id }

def withdraw (r : Reactor) (receiver : Receiver) (kind : Kind) : Reactor :=
  { (r.discard receiver).setCount kind (r.count kind - 1) with
    connections := r.connections.dropLast }

def register (policy : KindSet) (kind : Kind) (receiver : Receiver) (wanted : Flags)
    (r : Reactor) : Except EventError Nat × Reactor :=
  if receiver.isReleased then (.error (.invalidParameter (.noEndpoint kind)), r)
  else
    let (id, ids) := r.ids.take
    let added := { r with ids }.add (Connection.new id kind receiver wanted)
    match added.checkActivate id policy .activate with
    | (.ok (), r) => (.ok id, r)
    | (.error e, r) => (.error e, r.withdraw receiver kind)

def unregister (id : Nat) (r : Reactor) : Except EventError Unit × Reactor :=
  match r.checkActivate id ∅ .deactivate with
  | (.error e, r) => (.error e, r)
  | (.ok (), r) =>
    match r.connection? id with
    | none => (.error (.connectionNotFound id), r)
    | some c => (.ok (), r.remove c)

def unregisterAll : List Nat → Reactor → Reactor
  | [], r => r
  | id :: ids, r => unregisterAll ids (r.unregister id).2

def cleanup (r : Reactor) : Reactor := r.unregisterAll (r.connections.map (·.id))

def assign (id : Nat) (e : Endpoint) (r : Reactor) : Except EventError Unit × Reactor :=
  let refuse (error : EventError) := (.error error, { r with host := r.host.close e })
  match r.connection? id with
  | none => refuse (.connectionNotFound id)
  | some c =>
    if c.IsActive then refuse (.invalidParameter (.isActive id))
    else match c.receiver with
      | none => refuse (.invalidParameter (.inDispatch id))
      | some receiver =>
        let (receiver, host) := receiver.assign e r.host
        (.ok (), { r with host }.update id (·.hold receiver))

def sendEach (bytes : Bytes) : List Connection → Host → (Nat × List Nat) × Host
  | [], h => ((0, []), h)
  | c :: l, h =>
    match c.receiver with
    | none => sendEach bytes l h
    | some receiver =>
      match receiver.send bytes h with
      | (.ok (), h) =>
        let ((delivered, failed), h) := sendEach bytes l h
        ((delivered + 1, failed), h)
      | (.error _, h) =>
        let ((delivered, failed), h) := sendEach bytes l h
        ((delivered, c.id :: failed), h)

/-- Writes to every active connection of some kinds and removes those that fail. Returns how many
took the bytes. -/
def sendTo (kinds : KindSet) (bytes : Bytes) (r : Reactor) : Nat × Reactor :=
  let targets := r.connections.filter fun c => c.IsActive ∧ c.kind ∈ kinds
  let ((delivered, failed), host) := sendEach bytes targets r.host
  (delivered, { r with host }.unregisterAll failed)

end Reactor

end TraceGate
