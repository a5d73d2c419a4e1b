import TraceGate.Daemon.Settings

namespace TraceGate.Command

open Text

structure Options where
  settingsPath : Option String := none
  filterPath : Option String := none
  port : Option Nat := none
  logLevel : Option String := none
  jsonLogs : Bool := false
deriving DecidableEq, Repr

inductive OptionFault where
  | unknown (word : String)
  | noValue (word : String)
  | repeated (word : String)
  | badPort (text : String)
deriving DecidableEq, Repr

def OptionFault.message : OptionFault → String
  | unknown word => "unexpected argument '" ++ word ++ "'"
  | noValue word => "a value is required for '" ++ word ++ "'"
  | repeated word => "the argument '" ++ word ++ "' cannot be used multiple times"
  | badPort text => "'" ++ text ++ "' is not a port"

inductive ValueOption where
  | settings
  | filter
  | port
  | logLevel
deriving DecidableEq, Repr

namespace ValueOption

def all : List ValueOption := [settings, filter, port, logLevel]

def long : ValueOption → String
  | settings => "config"
  | filter => "filter-config"
  | port => "port"
  | logLevel => "log-level"

def letter? : ValueOption → Option Char
  | settings => some 'c'
  | filter => some 'f'
  | port => some 'p'
  | logLevel => none

end ValueOption

def joined : List Char → Option String
  | [] => none
  | '=' :: cs => some (String.ofList cs)
  | cs => some (String.ofList cs)

def option? (word : String) : Option (ValueOption × Option String) :=
  match word.toList with
  | '-' :: '-' :: cs =>
    let name := cs.takeWhile (· != '=')
    (ValueOption.all.find? fun o => o.long.toList == name).map fun o =>
      (o, joined (cs.drop name.length))
  | '-' :: c :: cs =>
    (ValueOption.all.find? fun o => o.letter? == some c).map fun o => (o, joined cs)
  | _ => none

namespace Options

def fill (word value : String) : Option String → Except OptionFault (Option String)
  | none => .ok (some value)
  | some _ => .error (.repeated word)

def readPort (text : String) : Except OptionFault Nat :=
  match Numeral.read? 10 0x10000 text.toList with
  | some n => .ok n
  | none => .error (.badPort text)

def set (o : Options) (word value : String) : ValueOption → Except OptionFault Options
  | .settings => (fill word value o.settingsPath).map fun v => { o with settingsPath := v }
  | .filter => (fill word value o.filterPath).map fun v => { o with filterPath := v }
  | .logLevel => (fill word value o.logLevel).map fun v => { o with logLevel := v }
  | .port =>
    if o.port.isSome then .error (.repeated word)
    else (readPort value).map fun n => { o with port := some n }

def read (o : Options) : List String → Except OptionFault Options
  | [] => .ok o
  | word :: rest =>
    if word = "--json-logs" then
      if o.jsonLogs then .error (.repeated word) else read { o with jsonLogs := true } rest
    else match option? word with
      | none => .error (.unknown word)
      | some (option, some value) => (o.set word value option).bind fun o => o.read rest
      | some (option, none) =>
        match rest with
        | [] => .error (.noValue word)
        | value :: rest => (o.set word value option).bind fun o => o.read rest

def override (o : Options) (s : Settings) : Settings :=
  { s with port := o.port.getD s.port, filterPath := o.filterPath <|> s.filterPath }

end Options

structure Failure where
  task : String
  cause : String
deriving DecidableEq, Repr

def Failure.report (f : Failure) : String :=
  "Error: " ++ f.task ++ "\n\nCaused by:\n    " ++ f.cause

def settings (path : String) (text : Except SystemError String) : Except Failure Settings :=
  (Settings.ofFile path text).mapError fun fault =>
    ⟨"Failed to load " ++ path, (DaemonError.settings fault).message⟩

def filter (file : Option (String × Except SystemError String)) :
    Except Failure Filter.MessageFilter :=
  let built := match file with
    | none => Filter.MessageFilter.permissive Settings.builtinFilter
    | some (path, text) => (Filter.Config.ofFile path text).bind Filter.MessageFilter.ofConfig
  built.mapError fun e => ⟨"Failed to build message filter", e.message⟩

def summary (f : Filter.MessageFilter) : List String :=
  ("filter " ++ f.name ++ " at level " ++ Numeral.decimal f.level) ::
    f.chain.segments.map fun s =>
      "levels " ++ Numeral.decimal s.levelMin ++ " to " ++ Numeral.decimal s.levelMax
        ++ ": " ++ s.name

end TraceGate.Command
