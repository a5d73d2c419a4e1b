import TraceGate.Filter.Build
import TraceGate.Filter.Document
import TraceGate.Host.State

namespace TraceGate.Filter

namespace Config

def ofText (text : String) : Except FilterError Config :=
  match ofDocument? text with
  | some c => .ok c
  | none => .error .configParse

def ofFile (path : String) : Except SystemError String → Except FilterError Config
  | .ok text => ofText text
  | .error e => .error (.configIo path e)

def load (h : Host) (path : String) : Except FilterError Config := ofFile path (h.fileText path)

end Config

end TraceGate.Filter
