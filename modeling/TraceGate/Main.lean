import TraceGate.Daemon.Command

namespace TraceGate.Command

def readText (path : String) : IO (Except SystemError String) := do
  try
    let bytes ← IO.FS.readBinFile path
    return match Text.Utf8.decode? bytes.toList with
      | some cs => .ok (String.ofList cs)
      | none => .error .notText
  catch
    | .noFileOrDirectory .. => return .error .notFound
    | .inappropriateType .. => return .error .isADirectory
    | e => throw e

def load (o : Options) : ExceptT Failure IO Filter.MessageFilter := do
  let s : Settings ← match o.settingsPath with
    | none => pure {}
    | some path => ExceptT.mk (settings path <$> readText path)
  match (o.override s).filterPath with
  | none => ExceptT.mk (pure (filter none))
  | some path => ExceptT.mk ((fun text => filter (some (path, text))) <$> readText path)

def run (words : List String) : IO UInt32 := do
  match Options.read {} words with
  | .error fault =>
    IO.eprintln ("error: " ++ fault.message)
    return 2
  | .ok o =>
    match ← (load o).run with
    | .error f =>
      IO.eprintln f.report
      return 1
    | .ok f =>
      (summary f).forM IO.println
      return 0

end TraceGate.Command

def main (words : List String) : IO UInt32 := TraceGate.Command.run words
