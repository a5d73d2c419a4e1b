import TraceGate.Text.Numeral

namespace TraceGate

inductive SystemError where
  | notFound
  | noSuchDevice
  | badDescriptor
  | wouldBlock
  | notADirectory
  | isADirectory
  | brokenPipe
  | nameTooLong
  | addressInUse
  | addressNotAvailable
  | networkUnreachable
  | connectionRefused
  | connectionAborted
  | rejectedTimer
  | badPath
  | socketPathTooLong
  | notText
  | released
  | unreadable
  | unwritable
  | notAListener
  | other (text : String)
deriving DecidableEq, Repr

def SystemError.message : SystemError → String
  | notFound => "No such file or directory (os error 2)"
  | noSuchDevice => "No such device or address (os error 6)"
  | badDescriptor => "Bad file descriptor (os error 9)"
  | wouldBlock => "Resource temporarily unavailable (os error 11)"
  | notADirectory => "Not a directory (os error 20)"
  | isADirectory => "Is a directory (os error 21)"
  | brokenPipe => "Broken pipe (os error 32)"
  | nameTooLong => "File name too long (os error 36)"
  | addressInUse => "Address already in use (os error 98)"
  | addressNotAvailable => "Cannot assign requested address (os error 99)"
  | networkUnreachable => "Network is unreachable (os error 101)"
  | connectionRefused => "Connection refused (os error 111)"
  | connectionAborted => "Software caused connection abort (os error 103)"
  | rejectedTimer => "timerfd_settime: EINVAL: Invalid argument"
  | badPath => "file name contained an unexpected NUL byte"
  | socketPathTooLong => "path must be shorter than SUN_LEN"
  | notText => "stream did not contain valid UTF-8"
  | released => "receiver is released"
  | unreadable => "endpoint cannot be read"
  | unwritable => "endpoint cannot be written"
  | notAListener => "endpoint is not a listener"
  | other text => text

def SystemError.report : SystemError → String
  | notFound => "ENOENT: No such file or directory"
  | noSuchDevice => "ENXIO: No such device or address"
  | badDescriptor => "EBADF: Bad file number"
  | wouldBlock => "EAGAIN: Try again"
  | notADirectory => "ENOTDIR: Not a directory"
  | isADirectory => "EISDIR: Is a directory"
  | brokenPipe => "EPIPE: Broken pipe"
  | nameTooLong => "ENAMETOOLONG: File name too long"
  | addressInUse => "EADDRINUSE: Address already in use"
  | addressNotAvailable => "EADDRNOTAVAIL: Cannot assign requested address"
  | networkUnreachable => "ENETUNREACH: Network is unreachable"
  | connectionRefused => "ECONNREFUSED: Connection refused"
  | connectionAborted => "ECONNABORTED: Software caused connection abort"
  | e => e.message

end TraceGate
