import TraceGate.Reactor.Error

namespace TraceGate

def dispatchTable {α : Type} (handlers : List (Kind × α)) : Except EventError (Kind → α) :=
  let last? (k : Kind) : Option α := handlers.reverse.lookup k
  match h : Kind.all.find? fun k => (last? k).isNone with
  | some k => .error (.missingHandler k)
  | none => .ok fun k => (last? k).get (by
      have := List.find?_eq_none.1 h k (Kind.mem_all k)
      cases hk : last? k <;> simp_all)

end TraceGate
