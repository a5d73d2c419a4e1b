namespace TraceGate.Filter

structure GeneralSection where
  name : String
  /-- Any integer; one that is no level is refused when the filter is built. -/
  defaultLevel : Int
  backend : Option String := none
deriving DecidableEq, Repr

def noneText : String := "NONE"

structure FilterSection where
  name : String
  level : Int
  clients : String := noneText
  controlMessages : String := noneText
  injections : String := noneText
deriving DecidableEq, Repr

structure InjectionSection where
  name : String
  app : String
  context : String
  node : String
  serviceIds : String
deriving DecidableEq, Repr

structure Config where
  general : GeneralSection
  filters : List FilterSection := []
  injections : List InjectionSection := []
deriving DecidableEq, Repr

end TraceGate.Filter
