import TraceGate.Daemon.Settings
import TraceGate.Filter.MessageFilter
import TraceGate.Reactor.Turn

namespace TraceGate

inductive Notice where
  | connected (level : Nat)
  | disconnected
  | levelChanged (level : Nat)
deriving DecidableEq, Repr

structure Stats where
  appBytes : Nat := 0
  forwarded : Nat := 0
  controlRequests : Nat := 0
  deniedRequests : Nat := 0
  accepted : Vector Nat 15 := Vector.replicate 15 0
deriving DecidableEq, Repr

def Stats.acceptedOf (s : Stats) (kind : Kind) : Nat :=
  s.accepted.get ⟨kind.index, kind.index_lt⟩

def Stats.countAccepted (s : Stats) (kind : Kind) : Stats :=
  { s with accepted := s.accepted.set kind.index (s.acceptedOf kind + 1) kind.index_lt }

structure State where
  settings : Settings
  filter : Filter.MessageFilter
  exit : Bool := false
  /-- Notices that wait to be dealt with; none if nothing takes them. -/
  notices : Option (List Notice) := none
  stats : Stats := {}
  listeners : List (Nat × Net.Address) := []
deriving DecidableEq, Repr

structure Site where
  state : State
  reactor : Reactor

namespace Site

variable {α : Type}

def setFilter (s : Site) (filter : Filter.MessageFilter) : Site :=
  { s with state := { s.state with filter } }

def setHost (s : Site) (host : Host) : Site := { s with reactor := { s.reactor with host } }

def requestExit (s : Site) : Site := { s with state := { s.state with exit := true } }

def react (s : Site) (f : Reactor → Except EventError α × Reactor) : Except DaemonError α × Site :=
  let (r, reactor) := f s.reactor
  (r.mapError .event, { s with reactor })

end Site

def Turn.site {α : Type} (f : Site → α × Site) : Turn State α := do
  let s ← get
  let (a, site) := f ⟨s.state, s.reactor⟩
  set { s with state := site.state, reactor := site.reactor }
  return a

end TraceGate
