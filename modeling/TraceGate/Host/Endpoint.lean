import TraceGate.Net.Address
import TraceGate.Text.Utf8

/-!
# Endpoints

An endpoint is an open end that the program holds: a stream, a listener, a timer or a file. The
host numbers endpoints twice. The `id` is never given again; the descriptor `fd` is, once the
endpoint is closed.

A stream leads over a `Line` to a peer outside the program.
-/

namespace TraceGate

inductive EndpointKind where
  | unixStream
  | tcpStream
  | unixListener
  | tcpListener
  | timer
  | file
deriving DecidableEq, Repr

structure Endpoint where
  id : Nat
  fd : Nat
  kind : EndpointKind
deriving DecidableEq, Repr

namespace Host

structure Line where
  inbound : Bytes := []
  outbound : Bytes := []
  /-- What the unread bytes to the peer take up. -/
  charge : Nat := 0
  homeOpen : Bool := true
  peerOpen : Bool := true
deriving DecidableEq, Repr

inductive Content where
  | stream (line : Nat)
  /-- A listener, with its address if it is on the network, and the lines that wait to be accepted,
  in the order of their connects. -/
  | listener (address : Option Net.Address) (pending : List Nat)
  | timer
  | file (node place : Nat)
deriving DecidableEq, Repr

end Host

end TraceGate
