import TraceGate.Host.Endpoint
import TraceGate.Host.Tree

/-!
# The host

The host holds the endpoints that are open, the lines and the file tree. Every operation of the
program on an endpoint goes through it and may fail; `faults` lists what the coming attempts meet,
`listenFaults` what the coming attempts to listen on the network meet, and `numbers` where the search
for the coming descriptors starts. With these lists empty every attempt takes its course and every
new descriptor is the least free one.
-/

namespace TraceGate

/-- What an attempt meets. A write may have come some way by then. -/
structure Fault where
  error : SystemError
  taken : Nat := 0
deriving DecidableEq, Repr

structure Host where
  endpoints : List (Endpoint × Host.Content) := []
  lines : List (Nat × Host.Line) := []
  peers : List (String × Nat) := []
  tree : Host.Tree := {}
  stored : List (Nat × Bytes) := []
  /-- Greater than every number given to an endpoint, a line or a file so far. -/
  next : Nat := 0
  faults : List (Option Fault) := []
  listenFaults : List (Option SystemError) := []
  refusals : Nat := 0
  numbers : List Nat := []
  /-- A line with more unread bytes than this takes no more; without a number lines never fill. -/
  lineRoom : Option Nat := none
  /-- How many bytes of a write an endpoint's line takes, and the line's charge after it. Given are the
  line's charge and the number of bytes. -/
  uptake : EndpointKind → Nat → Nat → Nat × Nat := fun _ charge n => (n, charge)
  reachable : Bool := true
  own : List Net.Address := []
  /-- Whether listeners can be bound to IPv4 addresses that are not the host's own. -/
  bindsForeign : Bool := false

namespace Host

def readLimit : Nat := 4096

def socketPathLimit : Nat := 108

def firstDescriptor : Nat := 3

def attempt {α : Type} (h : Host) (course : Host → Except SystemError α × Host)
    (partly : Nat → Host → Host := fun _ h => h) : Except SystemError α × Host :=
  match h.faults with
  | [] => course h
  | none :: rest => course { h with faults := rest }
  | some fault :: rest => (.error fault.error, partly fault.taken { h with faults := rest })

def attemptListen {α : Type} (h : Host) (course : Host → Except SystemError α × Host) :
    Except SystemError α × Host :=
  match h.listenFaults with
  | [] => course h
  | none :: rest => course { h with listenFaults := rest }
  | some e :: rest => (.error e, { h with listenFaults := rest })

def isOpen (h : Host) (fd : Nat) : Bool := h.endpoints.any fun e => e.1.fd == fd

def freeFrom (h : Host) (fd : Nat) : (tries : Nat) → Nat
  | 0 => fd
  | tries + 1 => if h.isOpen fd then freeFrom h (fd + 1) tries else fd

/-- The descriptor for the next endpoint. Among one number more than there are endpoints, one is
free. -/
def nextDescriptor (h : Host) : Nat :=
  h.freeFrom (h.numbers.head?.getD firstDescriptor) h.endpoints.length

def openEndpoint (h : Host) (kind : EndpointKind) (content : Content) : Endpoint × Host :=
  let e : Endpoint := { id := h.next, fd := h.nextDescriptor, kind }
  (e, { h with endpoints := h.endpoints ++ [(e, content)], next := h.next + 1,
               numbers := h.numbers.tail })

def content? (h : Host) (e : Endpoint) : Option Content := h.endpoints.lookup e

def setContent (h : Host) (e : Endpoint) (content : Content) : Host :=
  { h with endpoints := h.endpoints.map fun p => if p.1 = e then (e, content) else p }

def line? (h : Host) (n : Nat) : Option Line := h.lines.lookup n

def updateLine (h : Host) (n : Nat) (f : Line → Line) : Host :=
  { h with lines := h.lines.map fun p => if p.1 = n then (n, f p.2) else p }

def addLine (h : Host) : Nat × Host :=
  (h.next, { h with lines := h.lines ++ [(h.next, {})], next := h.next + 1 })

def storedBytes (h : Host) (node : Nat) : Bytes := (h.stored.lookup node).getD []

def setStored (h : Host) (node : Nat) (bytes : Bytes) : Host :=
  { h with stored := (node, bytes) :: h.stored.filter fun p => p.1 != node }

def closeHome (h : Host) (line : Nat) : Host := h.updateLine line ({ · with homeOpen := false })

/-- Closes an endpoint. Its peer sees the end of the stream; so do the peers that a listener has
not accepted. The path of a local listener stays. -/
def close (h : Host) (e : Endpoint) : Host :=
  let rest := { h with endpoints := h.endpoints.filter (·.1 != e) }
  match h.content? e with
  | some (.stream line) => rest.closeHome line
  | some (.listener _ pending) => pending.foldl closeHome rest
  | _ => rest

def read (h : Host) (e : Endpoint) : Except SystemError Bytes × Host :=
  match h.content? e with
  | none => (.error .badDescriptor, h)
  | some (.stream n) => h.attempt fun h =>
    match h.line? n with
    | none => (.error .badDescriptor, h)
    | some line =>
      if line.inbound.isEmpty ∧ line.peerOpen then (.error .wouldBlock, h)
      else (.ok (line.inbound.take readLimit),
        h.updateLine n ({ · with inbound := line.inbound.drop readLimit }))
  | some (.file node place) => h.attempt fun h =>
    let bytes := ((h.storedBytes node).drop place).take readLimit
    (.ok bytes, h.setContent e (.file node (place + bytes.length)))
  | some _ => (.error .unreadable, h)

def overwritten (old : Bytes) (place : Nat) (bytes : Bytes) : Bytes :=
  old.take place ++ bytes ++ old.drop (place + bytes.length)

def sendLine (h : Host) (n : Nat) (bytes : Bytes) : Host :=
  h.updateLine n fun line => { line with outbound := line.outbound ++ bytes }

def storeAt (h : Host) (e : Endpoint) (node place : Nat) (bytes : Bytes) : Host :=
  (h.setStored node (overwritten (h.storedBytes node) place bytes)).setContent e
    (.file node (place + bytes.length))

def part (taken : Nat) (bytes : Bytes) : Bytes := bytes.take (min taken (bytes.length - 1))

def send (h : Host) (e : Endpoint) (n : Nat) (bytes : Bytes) : Except SystemError Unit × Host :=
  match h.line? n with
  | none => (.error .badDescriptor, h)
  | some line =>
    if line.peerOpen then
      let (taken, charge) := h.uptake e.kind line.charge bytes.length
      let h := h.updateLine n ({ · with charge })
      if bytes.length ≤ taken then (.ok (), h.sendLine n bytes)
      else (.error .wouldBlock, h.sendLine n (part taken bytes))
    else (.error .brokenPipe, h)

/-- Writes all the bytes. What was taken before a failure stays taken. -/
def write (h : Host) (e : Endpoint) (bytes : Bytes) : Except SystemError Unit × Host :=
  match h.content? e with
  | none => (.error .badDescriptor, h)
  | some (.stream n) =>
    if bytes.isEmpty then (.ok (), h)
    else h.attempt (fun h => h.send e n bytes) fun taken h => h.sendLine n (part taken bytes)
  | some (.file node place) =>
    if bytes.isEmpty then (.ok (), h)
    else h.attempt (fun h => (.ok (), h.storeAt e node place bytes))
      fun taken h => h.storeAt e node place (part taken bytes)
  | some _ => (.error .unwritable, h)

def readTimer (h : Host) : Except SystemError Unit × Host := h.attempt fun h => (.ok (), h)

def acceptedKind : EndpointKind → EndpointKind
  | .tcpListener => .tcpStream
  | _ => .unixStream

def accept (h : Host) (e : Endpoint) : Except SystemError Endpoint × Host :=
  match h.content? e with
  | none => (.error .badDescriptor, h)
  | some (.listener _ _) => h.attempt fun h =>
    match h.content? e with
    | some (.listener address (n :: rest)) =>
      let rest := h.setContent e (.listener address rest)
      let (stream, h) := rest.openEndpoint (acceptedKind e.kind) (.stream n)
      (.ok stream, h)
    | _ => (.error .wouldBlock, h)
  | some _ => (.error .notAListener, h)

def address? (h : Host) (e : Endpoint) : Option Net.Address :=
  match h.content? e with
  | some (.listener address _) => address
  | _ => none

def backlog (h : Host) (e : Endpoint) : Nat :=
  match h.content? e with
  | some (.listener _ pending) => pending.length
  | _ => 0

def unread (h : Host) (e : Endpoint) : Nat :=
  match h.content? e with
  | some (.stream n) => (((h.line? n).map fun line => line.inbound.length).getD 0)
  | some (.file node place) => (h.storedBytes node).length - place
  | _ => 0

def prepare (h : Host) (e : Endpoint) : Except SystemError Endpoint × Host :=
  match h.attempt fun h => (.ok e, h) with
  | (.ok e, h) => (.ok e, h)
  | (.error error, h) => (.error error, h.close e)

/-- Listens on a path. The path stays, also if the listener cannot be made ready. -/
def listenLocal (h : Host) (path : String) : Except SystemError Endpoint × Host :=
  if (Text.Utf8.encode path.toList).length ≥ socketPathLimit then (.error .socketPathTooLong, h)
  else h.attempt fun h =>
    match h.tree.locate path with
    | .error e => (.error e, h)
    | .ok place =>
      if (h.tree.entry? place).isSome then (.error .addressInUse, h)
      else
        let (e, h) := h.openEndpoint .unixListener (.listener none [])
        prepare { h with tree := h.tree.put place (.socket e.id) } e

def isLocal : Net.Address → Bool
  | .v4 a b c d => a == 127 || (a, b, c, d) == (0, 0, 0, 0)
  | .v6 groups => groups.toList.dropLast.all (· == 0) && groups.back ≤ 1

def isForeign : Net.Address → Bool
  | .v4 .. => true
  | .v6 _ => false

def canBind (h : Host) (address : Net.Address) : Bool :=
  isLocal address || h.own.contains address || h.bindsForeign && isForeign address

def countRefusal {α : Type} : Except SystemError α × Host → Except SystemError α × Host
  | (.ok a, h) => (.ok a, h)
  | (.error e, h) => (.error e, { h with refusals := h.refusals + 1 })

def listenNetwork (h : Host) (address : Net.Address) : Except SystemError Endpoint × Host :=
  countRefusal <| h.attemptListen fun h =>
    if h.canBind address then
      let (e, h) := h.openEndpoint .tcpListener (.listener (some address) [])
      (.ok e, h)
    else (.error .addressNotAvailable, h)

def maxPeriod : Nat := 0x7FFFFFFFFFFFFFFF

def startTimer (h : Host) (seconds : Nat) : Except SystemError Endpoint × Host :=
  h.attempt fun h =>
    if seconds ≤ maxPeriod then
      let (e, h) := h.openEndpoint .timer .timer
      (.ok e, h)
    else (.error .rejectedTimer, h)

def openLine (h : Host) : (Endpoint × Nat) × Host :=
  let (n, h) := h.addLine
  let (e, h) := h.openEndpoint .unixStream (.stream n)
  ((e, n), h)

/-- Opens a line for the program's own use. If an end cannot be made ready, neither stays. -/
def openPair (h : Host) : Except SystemError (Endpoint × Nat) × Host :=
  h.attempt fun h => (.ok h.openLine.1, h.openLine.2)

def openFile (h : Host) (path : String) : Except SystemError Endpoint × Host :=
  h.attempt fun h =>
    match h.tree.find path with
    | .error e => (.error e, h)
    | .ok .directory => (.error .isADirectory, h)
    | .ok (.socket _) => (.error .noSuchDevice, h)
    | .ok (.file node) =>
      let (e, h) := h.openEndpoint .file (.file node 0)
      (.ok e, h)

def fileBytes (h : Host) (path : String) : Except SystemError Bytes :=
  (h.tree.find path).bind fun
    | .directory => .error .isADirectory
    | .socket _ => .error .noSuchDevice
    | .file node => .ok (h.storedBytes node)

def fileText (h : Host) (path : String) : Except SystemError String :=
  (h.fileBytes path).bind fun bytes => match Text.Utf8.decode? bytes with
    | some cs => .ok (String.ofList cs)
    | none => .error .notText

def storeFile (h : Host) (path : String) (bytes : Bytes) : Host :=
  match h.tree.locate path with
  | .error _ => h
  | .ok place => { h with tree := h.tree.put place (.file h.next), next := h.next + 1,
                          stored := h.stored ++ [(h.next, bytes)] }

def makeDirectory (h : Host) (path : String) : Host :=
  match h.tree.locate path with
  | .error _ => h
  | .ok place => { h with tree := h.tree.put place .directory }

def pathExists (h : Host) (path : String) : Bool := (h.tree.find path).isOk

def removeSocket (h : Host) (path : String) : Except SystemError Unit × Host :=
  match h.tree.remove path with
  | .ok tree => (.ok (), { h with tree })
  | .error .notFound => (.ok (), h)
  | .error e => (.error e, h)

def relistenLocal (h : Host) (path : String) : Except SystemError Endpoint × Host :=
  match h.removeSocket path with
  | (.ok (), h) => h.listenLocal path
  | (.error e, h) => (.error e, h)

end Host

end TraceGate
