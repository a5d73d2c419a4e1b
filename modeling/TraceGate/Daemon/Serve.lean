import TraceGate.Daemon.Level

namespace TraceGate.Site

def requestedLevel? : Bytes → Option Nat
  | [a, b, c, d] => some (Frame.word a b c d).toNat
  | _ => none

def statusPayload (filter : Filter.MessageFilter) : Bytes :=
  Frame.encodeWord (UInt32.ofNat filter.level) ++ Text.Utf8.encode filter.segment.name.toList

def serveControl (r : Request) (s : Site) : Response × Site :=
  let respond (status : Status) (payload : Bytes) : Response :=
    { service := r.service, status, payload }
  if r.service.toNat = Service.setFilterLevel then
    match requestedLevel? r.payload with
    | none => (respond .error [], s)
    | some level =>
      match s.applyLevel level with
      | (.ok _, s) => (respond .ok [], s)
      | (.error _, s) => (respond .error [], s)
  else if r.service.toNat = Service.getFilterStatus then
    (respond .ok (statusPayload s.state.filter), s)
  else (respond .notSupported [], s)

def injectionStatus (filter : Filter.MessageFilter) (r : Request) : Status :=
  match Target.decode r.payload with
  | .error _ => .error
  | .ok t =>
    match filter.injectionAllowed t.app t.context t.node r.service.toNat with
    | .ok true => .ok
    | .ok false => .permDenied
    | .error _ => .error

def respond (r : Request) (s : Site) : Response × Site :=
  if Service.isInjection r.service.toNat then
    ({ service := r.service, status := injectionStatus s.state.filter r }, s)
  else
    match s.state.filter.controlAllowed r.service.toNat with
    | .ok true => s.serveControl r
    | .ok false => ({ service := r.service, status := .permDenied }, s)
    | .error _ => ({ service := r.service, status := .notSupported }, s)

def changeStats (s : Site) (f : Stats → Stats) : Site :=
  { s with state := { s.state with stats := f s.state.stats } }

def serve (r : Request) (s : Site) : Response × Site :=
  let s := s.changeStats fun t => { t with controlRequests := t.controlRequests + 1 }
  let (response, s) := s.respond r
  if response.status = .permDenied then
    (response, s.changeStats fun t => { t with deniedRequests := t.deniedRequests + 1 })
  else (response, s)

end TraceGate.Site
