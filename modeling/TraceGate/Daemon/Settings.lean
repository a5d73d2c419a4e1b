import TraceGate.Daemon.Error
import TraceGate.Filter.Load

namespace TraceGate

open Toml Text

structure Settings where
  name : String := "ECU1"
  port : Nat := 3490
  /-- Where to listen for log consumers; nothing stands for every address. -/
  bindAddresses : List Net.Address := []
  appSocket : String := "/tmp/dlt"
  controlSocket : String := "/tmp/dlt-ctrl.sock"
  serialDevice : Option String := none
  /-- In milliseconds. -/
  pollTimeout : Nat := 1000
  /-- In seconds; there is no watchdog without it. -/
  watchdogInterval : Option Nat := none
  filterPath : Option String := none
deriving DecidableEq, Repr

namespace Settings

def builtinFilter : String := "Builtin"

def validate (s : Settings) : Except SettingsFault Unit :=
  if s.pollTimeout = 0 then .error .noPollTimeout
  else if s.pollTimeout > maxPollTimeout then .error .longPollTimeout
  else if s.watchdogInterval = some 0 then .error .noWatchdogInterval
  else if s.name = "" ∨ (Utf8.encode s.name.toList).length > 4 then .error (.badName s.name)
  else .ok ()

def listenAddresses (s : Settings) : List Net.Address :=
  if s.bindAddresses.isEmpty then [.unspecified] else s.bindAddresses

def keys : List String :=
  ["ecu_id", "port", "bind_addresses", "app_socket", "control_socket", "serial_device",
    "poll_timeout_ms", "watchdog_interval_secs", "filter_config"]

def given {α : Type} (f : Value → Option α) (v : Value) : Option (Option α) := some <$> f v

def ofValue? (v : Value) : Option Settings := do
  let r ← Record.of? v
  guard (r.onlyNames keys)
  let s : Settings := {}
  let address (v : Value) := v.text?.bind Net.Address.read?
  return { name := ← r.allow 0 "ecu_id" Value.text? s.name,
           port := ← r.allow 1 "port" (Value.natural? 0x10000) s.port,
           bindAddresses := ← r.allow 2 "bind_addresses" (Value.list? address) s.bindAddresses,
           appSocket := ← r.allow 3 "app_socket" Value.text? s.appSocket,
           controlSocket := ← r.allow 4 "control_socket" Value.text? s.controlSocket,
           serialDevice := ← r.allow 5 "serial_device" (given Value.text?) s.serialDevice,
           pollTimeout := ← r.allow 6 "poll_timeout_ms" (Value.natural? 0x10000000000000000) s.pollTimeout,
           watchdogInterval := ← r.allow 7 "watchdog_interval_secs"
             (given (Value.natural? 0x10000000000000000)) s.watchdogInterval,
           filterPath := ← r.allow 8 "filter_config" (given Value.text?) s.filterPath }

def ofDocument? (text : String) : Option Settings := do
  let r := Record.named (← Toml.read? text)
  guard (r.onlyNames ["daemon"])
  r.allow 0 "daemon" ofValue? {}

def ofText (text : String) : Except SettingsFault Settings :=
  match ofDocument? text with
  | none => .error .malformed
  | some s => s.validate.map fun _ => s

def ofFile (path : String) : Except SystemError String → Except SettingsFault Settings
  | .ok text => ofText text
  | .error e => .error (.unreadable path e)

def load (h : Host) (path : String) : Except SettingsFault Settings := ofFile path (h.fileText path)

def loadFilter (s : Settings) (h : Host) : Except Filter.FilterError Filter.MessageFilter :=
  match s.filterPath with
  | none => Filter.MessageFilter.permissive builtinFilter
  | some path => (Filter.Config.load h path).bind Filter.MessageFilter.ofConfig

end Settings

end TraceGate
