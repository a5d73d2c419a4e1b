import TraceGate.Daemon.Backend
import TraceGate.Daemon.Serve

/-!
# The daemon's handlers

One handler for each kind of connection: listeners accept, log consumers and control clients are
served, what applications write is forwarded, timers tick, the backend's notices are applied, and
what other ends send is read and dropped.

A peer that closes or fails is removed, and its handler goes on as if nothing were wrong. Only the
control listener, the timers and the backend's line make their handlers fail.
-/

namespace TraceGate.Handlers

def acceptAll (peer : Kind) (fatal : Bool) (listener : Endpoint) : (fuel : Nat) → Turn State Unit
  | 0 => return
  | fuel + 1 => do
    match ← Turn.receiver fun receiver host =>
        let (r, host) := host.accept listener
        (r, receiver, host) with
    | .error .wouldBlock => return
    | .error .connectionAborted => acceptAll peer fatal listener fuel
    | .error e =>
      if fatal then
        Turn.site fun s => ((), s.requestExit)
        throw e.message
    | .ok e =>
      Turn.site fun s =>
        match s.react (Reactor.register s.state.filter.allowed peer (.ofEndpoint e)
          Flags.input) with
        | (.ok _, s) => ((), s.changeStats (·.countAccepted peer))
        | (.error _, s) => ((), s)
      acceptAll peer fatal listener fuel

/-- Accepts every connection that waits and registers it as `peer`; one that its peer has given up is
passed over. If accepting fails on a `fatal` listener, the daemon is asked to end. Every attempt takes
a connection that waits or meets a fault, so there are no more of them than of both. -/
def accept (peer : Kind) (fatal : Bool) : Handler State := fun id => do
  let scene ← get
  match scene.receiver.endpoint with
  | none => throw ("listener " ++ connectionName id ++ " has no socket")
  | some listener =>
    let host := scene.reactor.host
    acceptAll peer fatal listener (host.backlog listener + host.faults.length + 1)

def dropPeer (id : Nat) : Turn State Unit := do
  Turn.orFail EventError.message (← Turn.reactor (Reactor.unregister id))

def fillOrDrop (id : Nat) : Turn State Bool := do
  match ← Turn.receiver Receiver.fill with
  | .ok (.data _) => return true
  | .ok .wouldBlock => return false
  | .ok .closed => dropPeer id; return false
  | .error _ => dropPeer id; return false

def takeBuffer : Turn State Bytes :=
  Turn.receiver fun receiver host =>
    (receiver.buffer, receiver.consume receiver.buffer.length, host)

def takeRequest : Turn State (Except FrameFault (Option Request)) :=
  Turn.receiver fun receiver host =>
    match Request.decode? receiver.buffer with
    | .error fault => (.error fault, receiver, host)
    | .ok none => (.ok none, receiver, host)
    | .ok (some (request, length)) => (.ok (some request), receiver.consume length, host)

def serveAll (id : Nat) : (fuel : Nat) → Turn State Unit
  | 0 => return
  | fuel + 1 => do
    match ← takeRequest with
    | .error _ => dropPeer id
    | .ok none => return
    | .ok (some request) =>
      let response ← Turn.site (Site.serve request)
      let sent ← Turn.receiver fun receiver host =>
        let (r, host) := receiver.send response.encode host
        (r, receiver, host)
      match sent with
      | .error _ => dropPeer id
      | .ok () => serveAll id fuel

/-- Serves control requests and answers on the same connection. A request has at least as many
bytes as its header, so there are no more of them than bytes in the buffer. -/
def stream : Handler State := fun id => do
  if ← fillOrDrop id then
    serveAll id ((← get).receiver.buffer.length + 1)

def consumers : KindSet := .ofList [.clientMsgTcp, .clientMsgSerial]

def forward : Handler State := fun id => do
  if ← fillOrDrop id then
    let bytes ← takeBuffer
    let delivered ← Turn.reactor (Reactor.sendTo consumers bytes)
    Turn.site fun s => ((), s.changeStats fun t =>
      { t with appBytes := t.appBytes + bytes.length, forwarded := t.forwarded + delivered })

def ignore : Handler State := fun id => do
  if ← fillOrDrop id then
    discard takeBuffer

def timer (kind : Kind) : Handler State := fun id => do
  let scene ← get
  if scene.receiver.endpoint.any fun e => e.kind == EndpointKind.timer then
    match ← Turn.receiver fun receiver host =>
        let (r, host) := host.readTimer
        (r, receiver, host) with
    | .ok () => return
    | .error .wouldBlock => return
    | .error e => throw ("timer read failed: " ++ e.report)
  else throw (kind.name ++ " connection " ++ connectionName id ++ " has no timer")

def drainWake (id : Nat) : (fuel : Nat) → Turn State Unit
  | 0 => return
  | fuel + 1 => do
    match ← Turn.receiver Receiver.fill with
    | .error e => throw e.message
    | .ok .wouldBlock => return
    | .ok .closed => dropPeer id
    | .ok (.data _) =>
      discard takeBuffer
      drainWake id fuel

/-- Applies the notices of the level backend. Every read takes a byte at least, so there are no more
reads than bytes. -/
def backend : Handler State := fun id => do
  let scene ← get
  drainWake id ((scene.receiver.endpoint.map scene.reactor.host.unread).getD 0 + 1)
  let notices ← Turn.site Site.takeNotices
  Turn.orFail DaemonError.message (← Turn.site (Site.applyNotices notices))

def ofKind : Kind → Handler State
  | .clientConnect => accept .clientMsgTcp false
  | .appConnect => accept .appMsg false
  | .controlConnect => accept .controlMsg true
  | .clientMsgTcp => stream
  | .clientMsgSerial => stream
  | .controlMsg => stream
  | .appMsg => forward
  | .oneSecondTimer => timer .oneSecondTimer
  | .sixtySecondTimer => timer .sixtySecondTimer
  | .watchdogTimer => timer .watchdogTimer
  | .gatewayTimer => timer .gatewayTimer
  | .filterBackend => backend
  | .offlineTrace => ignore
  | .offlineLogstorage => ignore
  | .gateway => ignore

end TraceGate.Handlers
