import TraceGate.Daemon.Site

/-!
# Applying a level

A new level may change which connections are allowed. The filter moves first; then every listen
address gets its listener if the policy allows listening; last, every connection is brought in line.
Deactivation closes a client listener's socket, so allowing it again opens a new one, on the
connection that it had.
-/

namespace TraceGate.Site

def forgetListeners (s : Site) : Site :=
  let listeners := s.state.listeners.filter fun l => (s.reactor.connection? l.1).isSome
  { s with state := { s.state with listeners } }

def openListener (address : Net.Address) (s : Site) : Except DaemonError Endpoint × Site :=
  let (r, host) := s.reactor.host.listenNetwork address
  (r.mapError (.socket (address.withPort s.state.settings.port)), s.setHost host)

def addListener (s : Site) (id : Nat) (address : Net.Address) : Site :=
  { s with state := { s.state with listeners := s.state.listeners ++ [(id, address)] } }

def ensureListener (address : Net.Address) (s : Site) : Except DaemonError Unit × Site :=
  match s.state.listeners.find? fun l => l.2 == address with
  | some (id, _) =>
    if (s.reactor.connection? id).any fun c => c.fd.isNone then
      match s.openListener address with
      | (.error e, s) => (.error e, s)
      | (.ok e, s) => s.react (Reactor.assign id e)
    else (.ok (), s)
  | none =>
    match s.openListener address with
    | (.error e, s) => (.error e, s)
    | (.ok e, s) =>
      match s.react (Reactor.register s.state.filter.allowed .clientConnect (.ofEndpoint e)
        Flags.input) with
      | (.error e, s) => (.error e, s)
      | (.ok id, s) => (.ok (), s.addListener id address)

def ensureEach : List Net.Address → Site → Except DaemonError Unit × Site
  | [], s => (.ok (), s)
  | address :: rest, s =>
    match s.ensureListener address with
    | (.error e, s) => (.error e, s)
    | (.ok (), s) => ensureEach rest s

def ensureListeners (s : Site) : Except DaemonError Unit × Site :=
  if .clientConnect ∈ s.state.filter.allowed then
    s.forgetListeners.ensureEach s.state.settings.listenAddresses
  else (.ok (), s)

/-- Puts a level in force. If a listener cannot be opened, the daemon is asked to end. -/
def applyLevel (level : Nat) (s : Site) : Except DaemonError Filter.LevelChange × Site :=
  match s.state.filter.changeLevel level with
  | .error e => (.error (.filter e), s)
  | .ok (change, filter) =>
    match (s.setFilter filter).ensureListeners with
    | (.error e, s) => (.error e, s.requestExit)
    | (.ok (), s) =>
      match s.react (Reactor.reconcile s.state.filter.allowed .all) with
      | (.error e, s) => (.error e, s)
      | (.ok (), s) => (.ok change, s)

end TraceGate.Site
