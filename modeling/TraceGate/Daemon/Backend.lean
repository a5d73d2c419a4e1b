import TraceGate.Daemon.Level
import TraceGate.Host.Peer

namespace TraceGate

structure Notifier where
  line : Nat
deriving DecidableEq, Repr

namespace Site

def linkBackend (s : Site) : Except DaemonError (Notifier × Endpoint) × Site :=
  match s.reactor.host.openPair with
  | (.ok (e, line), host) =>
    (.ok (⟨line⟩, e), { s.setHost host with state := { s.state with notices := some [] } })
  | (.error e, host) => (.error (.system e), s.setHost host)

def enqueue (notice : Notice) (s : Site) : Bool × Site :=
  match s.state.notices with
  | none => (false, s)
  | some queue => (true, { s with state := { s.state with notices := some (queue ++ [notice]) } })

/-- Writes the byte that wakes the reactor. A full line needs none: its unread bytes do. -/
def wake (notifier : Notifier) (s : Site) : Except DaemonError Unit × Site :=
  if s.reactor.host.isFull notifier.line then (.ok (), s)
  else match s.reactor.host.writeLine notifier.line [1] with
    | (true, host) => (.ok (), s.setHost host)
    | (false, host) => (.error (.system .brokenPipe), s.setHost host)

def notify (notifier : Notifier) (notice : Notice) (s : Site) : Except DaemonError Unit × Site :=
  match s.enqueue notice with
  | (false, s) => (.error .loopGone, s)
  | (true, s) => s.wake notifier

def dequeue (s : Site) : Option Notice × Site :=
  match s.state.notices with
  | some (notice :: rest) =>
    (some notice, { s with state := { s.state with notices := some rest } })
  | _ => (none, s)

def drain : (fuel : Nat) → Site → List Notice × Site
  | 0, s => ([], s)
  | fuel + 1, s =>
    match s.dequeue with
    | (none, s) => ([], s)
    | (some notice, s) =>
      let (rest, s) := drain fuel s
      (notice :: rest, s)

def takeNotices (s : Site) : List Notice × Site := s.drain (s.state.notices.getD []).length

def levelOf (filter : Filter.MessageFilter) : Notice → Nat
  | .connected level => level
  | .levelChanged level => level
  | .disconnected => filter.defaultLevel

def applyNotices : List Notice → Site → Except DaemonError Unit × Site
  | [], s => (.ok (), s)
  | notice :: rest, s =>
    match s.applyLevel (levelOf s.state.filter notice) with
    | (.ok _, s) => applyNotices rest s
    | (.error e, s) => if e.isFatal then (.error e, s) else applyNotices rest s

end Site

end TraceGate
