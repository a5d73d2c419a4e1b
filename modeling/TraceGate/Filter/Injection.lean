namespace TraceGate.Filter

def insertAscending (n : Nat) : List Nat → List Nat
  | [] => [n]
  | m :: l => if n < m then n :: m :: l else if n = m then m :: l else m :: insertAscending n l

def ascending (l : List Nat) : List Nat := l.foldr insertAscending []

theorem mem_insertAscending {n m : Nat} {l : List Nat} :
    m ∈ insertAscending n l ↔ m = n ∨ m ∈ l := by
  induction l with
  | nil => simp [insertAscending]
  | cons a l ih =>
    unfold insertAscending
    split
    · simp
    · split
      · rename_i h
        simp [h]
      · simp only [List.mem_cons, ih]
        exact or_left_comm

theorem mem_ascending {m : Nat} {l : List Nat} : m ∈ ascending l ↔ m ∈ l := by
  induction l with
  | nil => simp [ascending]
  | cons a l ih =>
    have : ascending (a :: l) = insertAscending a (ascending l) := rfl
    rw [this, mem_insertAscending, ih, List.mem_cons]

structure Injection where
  name : String
  app : String
  context : String
  node : String
  services : List Nat
deriving DecidableEq, Repr

def Injection.Matches (i : Injection) (app context node : String) (id : Nat) : Prop :=
  i.app = app ∧ i.context = context ∧ i.node = node ∧ id ∈ i.services

instance (i : Injection) (app context node : String) (id : Nat) :
    Decidable (i.Matches app context node id) :=
  inferInstanceAs (Decidable (_ ∧ _))

structure Registry where
  entries : List Injection := []
deriving DecidableEq, Repr

namespace Registry

def find? (r : Registry) (name : String) : Option Injection :=
  r.entries.find? fun i => i.name == name

def contains (r : Registry) (name : String) : Bool := (r.find? name).isSome

def place (i : Injection) : List Injection → List Injection
  | [] => [i]
  | j :: l => if i.name < j.name then i :: j :: l else j :: place i l

def insert (r : Registry) (i : Injection) : Registry :=
  if r.contains i.name then r else ⟨place i r.entries⟩

def names (r : Registry) : List String := r.entries.map (·.name)

end Registry

end TraceGate.Filter
