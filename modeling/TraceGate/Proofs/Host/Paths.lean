import Mathlib.Data.List.Basic
import TraceGate.Proofs.Host.Ownership

/-!
# Paths of sockets

A path is looked up through directories only. So where no directories have come about, a path that is found leads where
it did before (`Tree.Firm`), and a path that was removed is not found any more, unless it led to a directory.
-/

namespace TraceGate.Host

namespace Tree

variable {t t' t'' : Tree} {path : String} {place final rest : List String}

/-- The later tree has no other directories. -/
def Firm (t t' : Tree) : Prop := ∀ place, Tree.entry? t' place = some .directory → t.entry? place = some .directory

theorem Firm.refl (t : Tree) : Firm t t := fun _ => id

theorem Firm.trans (first : Firm t t') (second : Firm t' t'') : Firm t t'' :=
  fun place directory => first place (second place directory)

theorem Firm.walk (firm : Firm t t') (ok : t'.walk place rest = .ok final) : t.walk place rest = .ok final := by
  induction rest generalizing place with
  | nil => exact ok
  | cons name rest ih =>
      rw [Tree.walk] at ok
      split at ok
      · cases ok
      · rename_i directory
        rw [Tree.walk, firm place directory]
        dsimp only
        split at ok
        · rename_i same
          rw [if_pos same]
          exact ih ok
        · rename_i other
          rw [if_neg other]
          split at ok
          · rename_i up
            rw [if_pos up]
            exact ih ok
          · rename_i down
            rw [if_neg down]
            split at ok
            · cases ok
            · rename_i short
              rw [if_neg short]
              exact ih ok
      · cases ok

theorem Firm.locate (firm : Firm t t') (ok : t'.locate path = .ok place) : t.locate path = .ok place := by
  unfold Tree.locate at ok ⊢
  split at ok
  · cases ok
  · rename_i fit
    rw [if_neg fit]
    split at ok
    · cases ok
    · rename_i given
      rw [if_neg given]
      exact firm.walk ok

theorem find_eq_ok {entry : Entry} : t.find path = .ok entry ↔
    ∃ place, t.locate path = .ok place ∧ t.entry? place = some entry := by
  unfold Tree.find
  cases t.locate path with
  | error e => simp [Except.bind]
  | ok place =>
      dsimp only [Except.bind]
      cases entry : t.entry? place <;> simp [entry]

def Removable (t : Tree) (path : String) : Prop := t.find path ≠ .ok .directory

theorem Firm.removable (firm : Firm t t') (removable : t.Removable path) : t'.Removable path := by
  intro directory
  obtain ⟨place, located, entry⟩ := find_eq_ok.1 directory
  exact removable (find_eq_ok.2 ⟨place, firm.locate located, firm place entry⟩)

theorem lookup_filter {α β : Type} [BEq α] [LawfulBEq α] (l : List (α × β)) (a b : α) :
    (l.filter (·.1 != a)).lookup b = if b == a then none else l.lookup b := by
  induction l with
  | nil => simp
  | cons p l ih =>
      by_cases hit : p.1 = a
      · rw [List.filter_cons_of_neg (by simp [hit]), ih, List.lookup_cons, hit]
        cases b == a <;> rfl
      · rw [List.filter_cons_of_pos (by simp [hit]), List.lookup_cons, List.lookup_cons, ih]
        cases own : b == p.1 with
        | false => rfl
        | true =>
            rw [← LawfulBEq.eq_of_beq own] at hit
            simp [hit]

theorem entry?_filter (t : Tree) (place other : List String) :
    Tree.entry? ⟨t.entries.filter (·.1 != place)⟩ other =
      if other = [] ∨ other ≠ place then t.entry? other else none := by
  unfold Tree.entry?
  rw [lookup_filter]
  by_cases top : other = []
  · simp [top]
  · by_cases same : other = place
    · subst same
      simp [top]
    · simp [top, same]

theorem entry?_put (t : Tree) (place other : List String) (e : Entry) :
    Tree.entry? (t.put place e) other = if other = [] ∨ other ≠ place then t.entry? other else some e := by
  unfold Tree.entry? Tree.put
  rw [List.lookup_append, lookup_filter, List.lookup_cons, List.lookup_nil]
  by_cases top : other = []
  · simp [top]
  · by_cases same : other = place
    · subst same
      simp [top]
    · simp [top, same, beq_false_of_ne same]

theorem firm_put (t : Tree) (place : List String) (id : Nat) : Firm t (t.put place (.socket id)) := by
  intro other directory
  rw [ entry?_put] at directory
  split at directory
  · exact directory
  · cases directory

theorem remove_eq_ok (ok : t.remove path = .ok t') : ∃ place, t.locate path = .ok place ∧
    t.entry? place ≠ some .directory ∧ t' = ⟨t.entries.filter (·.1 != place)⟩ := by
  unfold Tree.remove at ok
  cases located : t.locate path with
  | error e =>
      rw [located] at ok
      cases ok
  | ok place =>
      rw [located] at ok
      dsimp only [Except.bind] at ok
      refine ⟨place, rfl, ?_⟩
      split at ok
      · cases ok
      · cases ok
      · rename_i entry other known
        cases ok
        refine ⟨fun directory => other ?_, rfl⟩
        exact Option.some_inj.1 (known.symm.trans directory)

theorem remove_entry? (ok : t.remove path = .ok t') {entry : Entry} (known : Tree.entry? t' place = some entry) :
    t.entry? place = some entry := by
  obtain ⟨gone, -, -, rfl⟩ := remove_eq_ok ok
  rw [ entry?_filter] at known
  split at known
  · exact known
  · cases known

theorem firm_remove (ok : t.remove path = .ok t') : Firm t t' := fun _ => remove_entry? ok

theorem find_of_remove {other : String} (ok : t.remove path = .ok t') {entry : Entry} (found : t'.find other = .ok entry) :
    t.find other = .ok entry := by
  obtain ⟨place, located, known⟩ := find_eq_ok.1 found
  exact find_eq_ok.2 ⟨place, (firm_remove ok).locate located, remove_entry? ok known⟩

theorem find_removed (ok : t.remove path = .ok t') (entry : Entry) : t'.find path ≠ .ok entry := by
  intro found
  obtain ⟨place, located, known⟩ := find_eq_ok.1 found
  obtain ⟨gone, gone_at, other, rfl⟩ := remove_eq_ok ok
  obtain rfl : gone = place := Except.ok.inj (gone_at.symm.trans ((firm_remove ok).locate located))
  rw [ entry?_filter] at known
  split at known
  · rename_i outside
    rcases outside with top | apart
    · exact other (by simp [ Tree.entry?, top])
    · exact apart rfl
  · cases known

theorem remove_error {error : SystemError} (failed : t.remove path = .error error) (removable : t.Removable path)
    (entry : Entry) : t.find path ≠ .ok entry := by
  intro found
  obtain ⟨place, located, known⟩ := find_eq_ok.1 found
  unfold Tree.remove at failed
  rw [located] at failed
  dsimp only [Except.bind] at failed
  rw [known] at failed
  split at failed
  · rename_i absent
    cases absent
  · rename_i directory
    rw [Option.some_inj.1 directory] at found
    exact removable found
  · cases failed

end Tree

variable {h h' : Host} {path other : String}

theorem pathExists_eq_false : h.pathExists path = false ↔ ∀ entry, h.tree.find path ≠ .ok entry := by
  unfold pathExists
  cases h.tree.find path <;> simp [Except.isOk, Except.toBool]

theorem removeSocket_tree (h : Host) (path : String) : Tree.Firm h.tree (h.removeSocket path).2.tree := by
  unfold removeSocket
  split
  · rename_i t ok
    exact Tree.firm_remove ok
  · exact .refl _
  · exact .refl _

theorem removeSocket_gone (h : Host) (path : String) :
    (h.tree.Removable path → (h.removeSocket path).2.pathExists path = false) ∧
    ∀ other, h.pathExists other = false → (h.removeSocket path).2.pathExists other = false := by
  unfold removeSocket
  split
  · rename_i t ok
    refine ⟨fun _ => pathExists_eq_false.2 (Tree.find_removed ok), fun other gone => pathExists_eq_false.2 ?_⟩
    exact fun entry found => pathExists_eq_false.1 gone entry (Tree.find_of_remove ok found)
  · rename_i failed
    exact ⟨fun removable => pathExists_eq_false.2 (Tree.remove_error failed removable), fun _ => id⟩
  · rename_i e _ failed
    exact ⟨fun removable => pathExists_eq_false.2 (Tree.remove_error failed removable), fun _ => id⟩

end TraceGate.Host
