import TraceGate.Service
import TraceGate.Text.Numeral
import TraceGate.Text.Utf8

/-!
# Control frames

A request is a service id, the length of the payload and the payload; a response has a status byte
after the service id. Ids and lengths are words of four bytes with the least significant byte first.

`decode?` reads a frame at the front of a buffer. As long as the frame is incomplete it gives none;
the checks are made as soon as the header is there, so an unfit frame is refused without waiting for
its payload.

The payload of an injection request starts with three names of four bytes, padded with zeros.
-/

namespace TraceGate

open Text

inductive FrameFault where
  | tooLong (length : Nat)
  | badStatus (code : UnknownCode)
  | shortTarget (length : Nat)
deriving DecidableEq, Repr

namespace Frame

def maxPayload : Nat := 65536

def targetLength : Nat := 12

def encodeWord (n : UInt32) : Bytes :=
  [n.toUInt8, (n >>> 8).toUInt8, (n >>> 16).toUInt8, (n >>> 24).toUInt8]

def word (a b c d : UInt8) : UInt32 :=
  a.toUInt32 ||| b.toUInt32 <<< 8 ||| c.toUInt32 <<< 16 ||| d.toUInt32 <<< 24

end Frame

def FrameFault.message : FrameFault → String
  | tooLong length =>
    "payload of " ++ Numeral.decimal length ++ " bytes exceeds " ++ Numeral.decimal Frame.maxPayload
  | badStatus code => code.message
  | shortTarget length =>
    "injection payload of " ++ Numeral.decimal length ++ " bytes is shorter than "
      ++ Numeral.decimal Frame.targetLength

structure Request where
  service : UInt32
  payload : Bytes
deriving DecidableEq, Repr

namespace Request

def encode (r : Request) : Bytes :=
  Frame.encodeWord r.service ++ Frame.encodeWord (UInt32.ofNat r.payload.length) ++ r.payload

def headerLength : Nat := 8

def decode? : Bytes → Except FrameFault (Option (Request × Nat))
  | s0 :: s1 :: s2 :: s3 :: n0 :: n1 :: n2 :: n3 :: rest =>
    let length := (Frame.word n0 n1 n2 n3).toNat
    if length > Frame.maxPayload then .error (.tooLong length)
    else if rest.length < length then .ok none
    else .ok (some (⟨Frame.word s0 s1 s2 s3, rest.take length⟩, headerLength + length))
  | _ => .ok none

end Request

structure Response where
  service : UInt32
  status : Status
  payload : Bytes := []
deriving DecidableEq, Repr

namespace Response

def encode (r : Response) : Bytes :=
  Frame.encodeWord r.service ++ [r.status.code] ++ Frame.encodeWord (UInt32.ofNat r.payload.length)
    ++ r.payload

def headerLength : Nat := 9

def decode? : Bytes → Except FrameFault (Option (Response × Nat))
  | s0 :: s1 :: s2 :: s3 :: code :: n0 :: n1 :: n2 :: n3 :: rest =>
    match Status.ofCode? code with
    | none => .error (.badStatus (.status code.toNat))
    | some status =>
      let length := (Frame.word n0 n1 n2 n3).toNat
      if rest.length < length then .ok none
      else .ok (some (⟨Frame.word s0 s1 s2 s3, status, rest.take length⟩, headerLength + length))
  | _ => .ok none

end Response

structure Target where
  node : String
  app : String
  context : String
deriving DecidableEq, Repr

namespace Target

def encodeName (name : String) : Bytes :=
  let bytes := (Utf8.encode name.toList).take 4
  bytes ++ List.replicate (4 - bytes.length) 0

def decodeName (bytes : Bytes) : String :=
  String.ofList (Utf8.decodeLossy (bytes.takeWhile (· != 0)))

def encode (t : Target) : Bytes := encodeName t.node ++ encodeName t.app ++ encodeName t.context

def decode (payload : Bytes) : Except FrameFault Target :=
  if payload.length < Frame.targetLength then .error (.shortTarget payload.length)
  else .ok { node := decodeName (payload.take 4), app := decodeName ((payload.drop 4).take 4),
             context := decodeName ((payload.drop 8).take 4) }

end Target

end TraceGate
