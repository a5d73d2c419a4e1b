import TraceGate.Filter.Segment

/-!
# Segment chains

A chain lists segments by the level at which each one ends. Inserting a segment moves the start of
the one after it, so that each starts right behind its predecessor; `close` makes the last one
reach up to the highest level.
-/

namespace TraceGate.Filter

/-- Segments in ascending order of `levelMax`. -/
structure Chain where
  segments : List Segment := []
deriving DecidableEq, Repr

namespace Chain

def fallbackName : String := "Restrictive"

def place (s : Segment) : (start : Nat) → List Segment → List Segment
  | start, [] => [{ s with levelMin := start }]
  | start, t :: l =>
    if t.levelMax < s.levelMax then t :: place s (t.levelMax + 1) l
    else { s with levelMin := start } :: { t with levelMin := s.levelMax + 1 } :: l

def below (c : Chain) (level : Nat) : Nat :=
  (c.segments.takeWhile fun s => s.levelMax < level).length

def insert (c : Chain) (s : Segment) : Except FilterError (Nat × Chain) :=
  if c.segments.any fun t => t.levelMax = s.levelMax then .error (.duplicateLevel s.levelMax)
  else .ok (c.below s.levelMax, ⟨place s 0 c.segments⟩)

def closeSegments : List Segment → List Segment
  | [] => [.restrictive fallbackName]
  | [s] => [if s.levelMax < maxLevel then { s with levelMax := maxLevel } else s]
  | s :: t :: l => s :: closeSegments (t :: l)

def close (c : Chain) : Chain := ⟨closeSegments c.segments⟩

def find? (c : Chain) (level : Nat) : Option Nat :=
  c.segments.findIdx? fun s => level ≤ s.levelMax

/-- Whether the segments follow each other without gaps from `expected` to the highest level. -/
def check : (expected : Nat) → List Segment → Except FilterError Unit
  | expected, [] =>
    if expected = maxLevel + 1 then .ok () else .error (.internal (.chainEnd (expected - 1)))
  | expected, s :: l =>
    if s.levelMin ≠ expected ∨ s.levelMax < s.levelMin then
      .error (.internal (.span s.name s.levelMin s.levelMax expected))
    else check (s.levelMax + 1) l

def validate (c : Chain) : Except FilterError Unit := check 0 c.segments

def owners (c : Chain) (level : Nat) : List Nat :=
  (c.segments.zipIdx.filter fun p => level ∈ p.1).map (·.2)

theorem lt_of_find?_eq_some {c : Chain} {level i : Nat} (h : c.find? level = some i) :
    i < c.segments.length :=
  (List.findIdx?_eq_some_iff_findIdx_eq.1 h).1

end Chain

end TraceGate.Filter
