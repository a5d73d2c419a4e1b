import TraceGate.Daemon.Frame
import TraceGate.Filter.Error
import TraceGate.Reactor.Error

namespace TraceGate

open Text

inductive SettingsFault where
  | unreadable (path : String) (error : SystemError)
  | malformed
  | noPollTimeout
  | longPollTimeout
  | noWatchdogInterval
  | badName (name : String)
deriving DecidableEq, Repr

/-- The longest poll timeout, in milliseconds. -/
def maxPollTimeout : Nat := 2147483647

def SettingsFault.message : SettingsFault → String
  | unreadable path error => path ++ ": " ++ error.message
  | malformed => "malformed document"
  | noPollTimeout => "poll_timeout_ms must be positive"
  | longPollTimeout => "poll_timeout_ms must not exceed " ++ Numeral.decimal maxPollTimeout
  | noWatchdogInterval => "watchdog_interval_secs must be positive"
  | badName name => "ecu_id '" ++ name ++ "' must be 1 to 4 characters"

inductive DaemonError where
  | settings (fault : SettingsFault)
  | filter (error : Filter.FilterError)
  | event (error : EventError)
  | socket (address : String) (error : SystemError)
  | loopGone
  | system (error : SystemError)
  | frame (fault : FrameFault)
deriving DecidableEq, Repr

namespace DaemonError

def message : DaemonError → String
  | settings fault => "Configuration error: " ++ fault.message
  | filter error => error.message
  | event error => error.message
  | socket address error => "Failed to open socket " ++ address ++ ": " ++ error.message
  | loopGone => "I/O error: backend event loop is gone"
  | system error => "I/O error: " ++ error.message
  | frame fault => "Malformed control frame: " ++ fault.message

def isFatal : DaemonError → Bool
  | socket _ _ => true
  | _ => false

end DaemonError

end TraceGate
