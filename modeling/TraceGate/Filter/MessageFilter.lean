import TraceGate.Filter.Chain
import TraceGate.Filter.Injection

namespace TraceGate.Filter

structure MessageFilter where
  name : String
  backend : Option String
  chain : Chain
  registry : Registry
  defaultLevel : Nat
  level : Nat
  current : Nat
  current_lt : current < chain.segments.length
deriving DecidableEq, Repr

structure LevelChange where
  previousLevel : Nat
  level : Nat
  previousMask : KindSet
  currentMask : KindSet
  segmentChanged : Bool
deriving DecidableEq, Repr

def LevelChange.changedKinds (c : LevelChange) : KindSet := c.previousMask.symmDiff c.currentMask

namespace MessageFilter

def unknownName? (registry : Registry) : List Segment → Option (String × String)
  | [] => none
  | s :: l => match s.injections.spelled.find? fun n => !registry.contains n with
    | some n => some (s.name, n)
    | none => unknownName? registry l

/-- A filter over a chain, at its default level. The chain must cover every level, and its
whitelists may spell out registered injections only. -/
def ofChain (name : String) (chain : Chain) (registry : Registry) (defaultLevel : Nat)
    (backend : Option String) : Except FilterError MessageFilter := do
  chain.validate
  let level ← checkLevel defaultLevel
  match h : chain.find? level with
  | none => throw (.noSegmentForLevel level)
  | some current =>
    match unknownName? registry chain.segments with
    | some (filter, injection) => throw (.unknownInjection filter injection)
    | none =>
      return { name, backend, chain, registry, defaultLevel := level, level, current,
               current_lt := Chain.lt_of_find?_eq_some h }

def permissive (name : String) : Except FilterError MessageFilter := do
  let (_, chain) ← Chain.insert {} (.permissive name)
  ofChain name chain {} maxLevel none

def segment (f : MessageFilter) : Segment := f.chain.segments.get ⟨f.current, f.current_lt⟩

def allowed (f : MessageFilter) : KindSet := f.segment.clients

def controlAllowed (f : MessageFilter) (id : Nat) : Except FilterError Bool :=
  f.segment.controls.test id

def anyMatches (registry : Registry) (app context node : String) (id : Nat) :
    List String → Except FilterError Bool
  | [] => .ok false
  | name :: l => match registry.find? name with
    | none => .error (.internal (.unregistered name))
    | some i =>
      if i.Matches app context node id then .ok true
      else anyMatches registry app context node id l

def injectionAllowed (f : MessageFilter) (app context node : String) (id : Nat) :
    Except FilterError Bool :=
  match f.segment.injections with
  | .all => .ok true
  | .nothing => .ok false
  | .names l => anyMatches f.registry app context node id l

def changeLevel (f : MessageFilter) (n : Nat) :
    Except FilterError (LevelChange × MessageFilter) := do
  let level ← checkLevel n
  match h : f.chain.find? level with
  | none => throw (.noSegmentForLevel level)
  | some next =>
    let g := { f with level, current := next, current_lt := Chain.lt_of_find?_eq_some h }
    return ({ previousLevel := f.level, level, previousMask := f.allowed,
              currentMask := g.allowed, segmentChanged := next != f.current }, g)

end MessageFilter

end TraceGate.Filter
