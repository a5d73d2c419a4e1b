import TraceGate.Flags
import TraceGate.Host.State

namespace TraceGate.Host

def state (h : Host) : Content → Flags
  | .stream n =>
    match h.line? n with
    | none => Flags.notOpen
    | some line =>
      (if line.inbound.isEmpty && line.peerOpen then 0 else Flags.input) ||| Flags.output
        ||| (if line.peerOpen then 0 else Flags.hungUp)
  | .listener _ pending => if pending.isEmpty then 0 else Flags.input
  | .timer => 0
  | .file _ _ => Flags.input ||| Flags.output

def readiness (h : Host) (fd : Int) (wanted : Flags) : Flags :=
  match h.endpoints.find? fun e => (e.1.fd : Int) == fd with
  | none => Flags.notOpen
  | some (_, content) => h.state content &&& (wanted ||| Flags.hungUp ||| Flags.notOpen)

end TraceGate.Host
