import TraceGate.Host.State

namespace TraceGate

structure Receiver where
  endpoint : Option Endpoint := none
  buffer : Bytes := []
deriving DecidableEq, Repr

inductive Fill where
  | data (count : Nat)
  | wouldBlock
  | closed
deriving DecidableEq, Repr

namespace Receiver

def released : Receiver := {}

def ofEndpoint (e : Endpoint) : Receiver := { endpoint := some e }

def fd? (r : Receiver) : Option Nat := r.endpoint.map (·.fd)

def isReleased (r : Receiver) : Bool := r.endpoint.isNone

def drop (r : Receiver) (h : Host) : Host :=
  match r.endpoint with
  | none => h
  | some e => h.close e

def release (r : Receiver) (h : Host) : Receiver × Host := (.released, r.drop h)

def assign (r : Receiver) (e : Endpoint) (h : Host) : Receiver × Host :=
  (.ofEndpoint e, r.drop h)

def fill (r : Receiver) (h : Host) : Except SystemError Fill × Receiver × Host :=
  match r.endpoint with
  | none => (.error .released, r, h)
  | some e =>
    match h.read e with
    | (.ok [], h) => (.ok .closed, r, h)
    | (.ok bytes, h) => (.ok (.data bytes.length), { r with buffer := r.buffer ++ bytes }, h)
    | (.error .wouldBlock, h) => (.ok .wouldBlock, r, h)
    | (.error e, h) => (.error e, r, h)

def consume (r : Receiver) (n : Nat) : Receiver := { r with buffer := r.buffer.drop n }

def send (r : Receiver) (bytes : Bytes) (h : Host) : Except SystemError Unit × Host :=
  match r.endpoint with
  | none => (.error .released, h)
  | some e => h.write e bytes

def accept (r : Receiver) (h : Host) : Except SystemError Endpoint × Host :=
  match r.endpoint with
  | none => (.error .released, h)
  | some e => h.accept e

end Receiver

end TraceGate
