import TraceGate.Host.State

namespace TraceGate.Host

def closePeer (h : Host) (n : Nat) : Host := h.updateLine n ({ · with peerOpen := false })

def label (h : Host) (name : String) (n : Nat) : Host :=
  let h := match h.peers.lookup name with
    | some old => h.closePeer old
    | none => h
  { h with peers := (name, n) :: h.peers.filter (·.1 != name) }

def openStream (h : Host) (name : String) : Endpoint × Host :=
  let ((e, n), h) := h.openLine
  (e, h.label name n)

def enqueue (h : Host) (e : Endpoint) (name : String) : Host :=
  match h.content? e with
  | some (.listener address pending) =>
    let (n, h) := h.addLine
    (h.setContent e (.listener address (pending ++ [n]))).label name n
  | _ => h

def connectLocal (h : Host) (path name : String) : Except SystemError Host :=
  if (Text.Utf8.encode path.toList).length ≥ socketPathLimit then .error .socketPathTooLong
  else (h.tree.find path).bind fun
    | .socket id =>
      match h.endpoints.find? fun e => e.1.id == id with
      | some (e, _) => .ok (h.enqueue e name)
      | none => .error .connectionRefused
    | _ => .error .connectionRefused

def connectNetwork (h : Host) (e : Endpoint) (name : String) : Except SystemError Host :=
  if h.reachable then .ok (h.enqueue e name) else .error .networkUnreachable

def isFull (h : Host) (n : Nat) : Bool :=
  match h.lineRoom, h.line? n with
  | some room, some line => line.homeOpen && room < line.inbound.length
  | _, _ => false

def writeLine (h : Host) (n : Nat) (bytes : Bytes) : Bool × Host :=
  match h.line? n with
  | none => (false, h)
  | some line =>
    if bytes.isEmpty then (true, h)
    else if line.homeOpen then
      (true, h.updateLine n ({ · with inbound := line.inbound ++ bytes }))
    else (false, h)

def drainLine (h : Host) (n : Nat) : (Bytes × Bool) × Host :=
  match h.line? n with
  | none => (([], true), h)
  | some line => ((line.outbound, !line.homeOpen), h.updateLine n ({ · with outbound := [], charge := 0 }))

def peerWrite (h : Host) (name : String) (bytes : Bytes) : Option Bool × Host :=
  match h.peers.lookup name with
  | none => (none, h)
  | some n =>
    let (r, h) := h.writeLine n bytes
    (some r, h)

def peerRead (h : Host) (name : String) : Option (Bytes × Bool) × Host :=
  match h.peers.lookup name with
  | none => (none, h)
  | some n =>
    let (r, h) := h.drainLine n
    (some r, h)

def peerClose (h : Host) (name : String) : Option (Bytes × Bool) × Host :=
  match h.peers.lookup name with
  | none => (none, h)
  | some n =>
    let (r, h) := h.drainLine n
    let h := h.closePeer n
    (some r, { h with peers := h.peers.filter (·.1 != name) })

end TraceGate.Host
