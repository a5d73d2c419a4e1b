import TraceGate.Filter.MessageFilter
import TraceGate.Filter.Section

/-!
# Building a filter

`MessageFilter.ofConfig` interprets the sections of a configuration. Injections come first, so that
whitelists can be checked against them; of two sections with one name the later is not looked at.
The first fault in this order is the one reported.
-/

namespace TraceGate.Filter

open Text

def Injection.ofSection (s : InjectionSection) : Except FilterError Injection := do
  for (field, value) in [(IdField.app, s.app), (.context, s.context), (.node, s.node)] do
    if trim value.toList = [] then throw (.configInvalid s.name (.blank field))
  let ids ← ListText.serviceIds s.name s.serviceIds
  if ids = [] then throw (.configInvalid s.name .noServices)
  let trimmed (value : String) := String.ofList (trim value.toList)
  return { name := s.name, app := trimmed s.app, context := trimmed s.context,
           node := trimmed s.node, services := ascending ids }

def Registry.addSections : Registry → List InjectionSection → Except FilterError Registry
  | r, [] => .ok r
  | r, s :: l =>
    if r.contains s.name then addSections r l
    else (Injection.ofSection s).bind fun i => addSections (r.insert i) l

def Segment.ofSection (registry : Registry) (s : FilterSection) : Except FilterError Segment := do
  let level ← checkLevel s.level
  let injections := ListText.injections s.injections
  match injections.spelled.find? fun n => !registry.contains n with
  | some missing => throw (.unknownInjection s.name missing)
  | none =>
    Segment.ofLevel s.name level (ListText.clients s.clients)
      (ListText.controls s.controlMessages) injections

def Chain.addSections (registry : Registry) :
    (seen : List String) → Chain → List FilterSection → Except FilterError Chain
  | _, c, [] => .ok c
  | seen, c, s :: l =>
    if seen.contains s.name then addSections registry seen c l
    else (Segment.ofSection registry s).bind fun segment =>
      (c.insert segment).bind fun (_, c) => addSections registry (s.name :: seen) c l

def MessageFilter.ofConfig (config : Config) : Except FilterError MessageFilter := do
  let registry ← Registry.addSections {} config.injections
  let chain ← Chain.addSections registry [] {} config.filters
  let level ← checkLevel config.general.defaultLevel
  ofChain config.general.name chain.close registry level config.general.backend

end TraceGate.Filter
