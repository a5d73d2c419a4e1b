namespace TraceGate

def maxLevel : Nat := 100

def level? (n : Int) : Option Nat :=
  if 0 ≤ n ∧ n ≤ maxLevel then some n.toNat else none

theorem level?_eq_some_iff {n : Int} {m : Nat} : level? n = some m ↔ n = m ∧ m ≤ maxLevel := by
  simp only [level?]
  split
  · simp only [Option.some.injEq]; omega
  · simp only [reduceCtorEq, false_iff]; omega

end TraceGate
