import TraceGate.Daemon.Handlers

namespace TraceGate

structure Daemon where
  site : Site
  notifier : Option Notifier := none
  isShutDown : Bool := false
  waits : Nat := 0

namespace Daemon

abbrev Start := ExceptT DaemonError (StateM Daemon)

def onSite {α : Type} (f : Site → α × Site) : StateM Daemon α := fun d =>
  let (a, site) := f d.site
  (a, { d with site })

def onHost {α : Type} (f : Host → α × Host) : StateM Daemon α :=
  onSite fun s =>
    let (a, host) := f s.reactor.host
    (a, s.setHost host)

def register (kind : Kind) (e : Endpoint) : Start Unit := do
  discard (ExceptT.mk (onSite fun s => s.react
    (Reactor.register s.state.filter.allowed kind (.ofEndpoint e) Flags.input)))

def openListener (path : String) : Start Endpoint :=
  ExceptT.mk (onHost fun h =>
    let (r, h) := h.relistenLocal path
    (r.mapError (.socket path), h))

def openTimer (seconds : Nat) : Start Endpoint :=
  ExceptT.mk (onHost fun h =>
    let (r, h) := h.startTimer seconds
    (r.mapError .system, h))

def openSerial : Start Unit := do
  let settings := (← get).site.state.settings
  match settings.serialDevice with
  | none => return
  | some path =>
    match ← liftM (onHost fun h => h.openFile path) with
    | .ok e => register .clientMsgSerial e
    | .error _ => return

def openBackend : Start Unit := do
  let filter := (← get).site.state.filter
  if filter.backend.isSome then
    let (notifier, e) ← ExceptT.mk (onSite Site.linkBackend)
    register .filterBackend e
    modify ({ · with notifier := some notifier })

def openEndpoints : Start Unit := do
  let state := (← get).site.state
  register .appConnect (← openListener state.settings.appSocket)
  register .controlConnect (← openListener state.settings.controlSocket)
  register .oneSecondTimer (← openTimer 1)
  register .sixtySecondTimer (← openTimer 60)
  match state.settings.watchdogInterval with
  | none => pure ()
  | some seconds => register .watchdogTimer (← openTimer seconds)
  openSerial
  openBackend
  discard (ExceptT.mk (onSite (Site.applyLevel state.filter.defaultLevel)))

def requestExit (d : Daemon) : Daemon := { d with site := d.site.requestExit }

def shutdown (d : Daemon) : Daemon :=
  if d.isShutDown then d
  else
    let reactor := d.site.reactor.cleanup
    let (_, host) := reactor.host.removeSocket d.site.state.settings.appSocket
    let (_, host) := host.removeSocket d.site.state.settings.controlSocket
    { d with site := { d.site with reactor := { reactor with host } }, isShutDown := true }

def start (settings : Settings) (filter : Filter.MessageFilter) (host : Host) :
    Except DaemonError Unit × Daemon :=
  let d : Daemon := { site := { state := { settings, filter }, reactor := { host } } }
  match settings.validate with
  | .error fault => (.error (.settings fault), d)
  | .ok () =>
    match openEndpoints.run.run d with
    | (.ok (), d) => (.ok (), d)
    | (.error e, d) => (.error e, d.shutdown)

def setLevel (level : Nat) (d : Daemon) : Except DaemonError Filter.LevelChange × Daemon :=
  (onSite (Site.applyLevel level)).run d

def runOnce (wait : Wait) (d : Daemon) : Except DaemonError Nat × Daemon :=
  let (r, reactor, state) := d.site.reactor.round wait Handlers.ofKind d.site.state
  (r.mapError .event, { d with site := ⟨state, reactor⟩, waits := d.waits + 1 })

/-- A wait, and what happens outside the daemon before it and during it. -/
structure Moment where
  before : Site → Site := id
  during : Site → Site := id
  wait : Wait

/-- Runs until the daemon is asked to end or a round fails, and shuts down. The moments are those to
come; while the daemon waits after the last of them, it is asked to end. Returns the moments that were
not needed. -/
def run : List Moment → Daemon → (Except DaemonError Unit × List Moment) × Daemon
  | [], d =>
    if d.site.state.exit then ((.ok (), []), d.shutdown)
    else
      let (_, d) := d.requestExit.runOnce (Round.wait [])
      ((.ok (), []), d.shutdown)
  | m :: rest, d =>
    let d : Daemon := { d with site := m.before d.site }
    if d.site.state.exit then ((.ok (), m :: rest), d.shutdown)
    else match { d with site := m.during d.site : Daemon }.runOnce m.wait with
      | (.error e, d) => ((.error e, rest), d.requestExit.shutdown)
      | (.ok _, d) => run rest d

def clientAddresses (d : Daemon) : List Net.Address :=
  (d.site.reactor.connections.filter fun c => c.kind = .clientConnect).filterMap fun c =>
    (c.receiver.bind (·.endpoint)).bind d.site.reactor.host.address?

end Daemon

end TraceGate
