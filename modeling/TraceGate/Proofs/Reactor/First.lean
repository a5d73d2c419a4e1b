import Mathlib.Data.List.Pairwise
import Mathlib.Tactic.ByContra
import TraceGate.Reactor.State

namespace TraceGate

open Connection

variable {p q : Connection → Bool} {f : Connection → Connection} {before after l : List Connection}
  {c : Connection}

theorem updateFirst_append (head : p c) (ahead : ∀ d ∈ before, ¬p d) :
    updateFirst p f (before ++ c :: after) = before ++ f c :: after := by
  induction before with
  | nil => simp [updateFirst, head]
  | cons d before ih =>
      have skip := ahead d List.mem_cons_self
      simp only [List.cons_append, updateFirst, if_neg skip]
      rw [ih fun d mem => ahead d (List.mem_cons_of_mem _ mem)]

theorem mem_updateFirst {d : Connection} (mem : d ∈ updateFirst p f l) :
    d ∈ l ∨ ∃ c ∈ l, p c ∧ d = f c := by
  induction l with
  | nil => cases mem
  | cons c l ih =>
      rw [updateFirst] at mem
      split at mem
      · rename_i head
        rcases List.mem_cons.1 mem with rfl | tail
        · exact Or.inr ⟨c, List.mem_cons_self, head, rfl⟩
        · exact Or.inl (List.mem_cons_of_mem _ tail)
      · rcases List.mem_cons.1 mem with rfl | tail
        · exact Or.inl List.mem_cons_self
        · rcases ih tail with old | ⟨d, mem, hit, eq⟩
          · exact Or.inl (List.mem_cons_of_mem _ old)
          · exact Or.inr ⟨d, List.mem_cons_of_mem _ mem, hit, eq⟩

theorem mem_updateFirst_of_not (mem : c ∈ l) (other : ¬p c) : c ∈ updateFirst p f l := by
  induction l with
  | nil => cases mem
  | cons d l ih =>
      unfold updateFirst
      rcases List.mem_cons.1 mem with rfl | later
      · rw [if_neg other]
        exact List.mem_cons_self
      · split
        · exact List.mem_cons_of_mem _ later
        · exact List.mem_cons_of_mem _ (ih later)

theorem map_updateFirst {α : Type} (g : Connection → α) (same : ∀ d, g (f d) = g d) :
    (updateFirst p f l).map g = l.map g := by
  induction l with
  | nil => rfl
  | cons d l ih =>
      rw [updateFirst]
      split
      · simp [same]
      · simp [ih]

theorem mem_eraseP_updateFirst {d : Connection} (same : ∀ d, q (f d) = q d)
    (mem : d ∈ (updateFirst p f l).eraseP q) : d ∈ l.eraseP q ∨ ∃ c ∈ l.eraseP q, p c ∧ d = f c := by
  induction l with
  | nil => cases mem
  | cons c l ih =>
      rw [updateFirst] at mem
      cases skipped : q c
      · rw [List.eraseP_cons_of_neg (by simp [skipped])]
        split at mem <;> rename_i head
        · rw [List.eraseP_cons_of_neg (by simp [same, skipped])] at mem
          rcases List.mem_cons.1 mem with rfl | tail
          · exact Or.inr ⟨c, List.mem_cons_self, head, rfl⟩
          · exact Or.inl (List.mem_cons_of_mem _ tail)
        · rw [List.eraseP_cons_of_neg (by simp [skipped])] at mem
          rcases List.mem_cons.1 mem with rfl | tail
          · exact Or.inl List.mem_cons_self
          · rcases ih tail with old | ⟨d, origin, hit, eq⟩
            · exact Or.inl (List.mem_cons_of_mem _ old)
            · exact Or.inr ⟨d, List.mem_cons_of_mem _ origin, hit, eq⟩
      · rw [List.eraseP_cons_of_pos skipped]
        split at mem
        · rw [List.eraseP_cons_of_pos (by rw [same, skipped])] at mem
          exact Or.inl mem
        · rw [List.eraseP_cons_of_pos skipped] at mem
          exact mem_updateFirst mem

theorem updateFirst_eq_map {f : Connection → Connection} {id : Nat} {l : List Connection}
    (numbered : (l.map (·.id)).Nodup) :
    updateFirst (·.id == id) f l = l.map fun c => if c.id = id then f c else c := by
  induction l with
  | nil => rfl
  | cons c l ih =>
      rw [List.map_cons, List.nodup_cons] at numbered
      by_cases head : c.id = id
      · have others : l.map (fun d => if d.id = id then f d else d) = l := by
          refine (List.map_congr_left fun d mem => if_neg fun same => ?_).trans (List.map_id l)
          exact numbered.1 (head ▸ same ▸ List.mem_map_of_mem mem)
        simp [updateFirst, head, others]
      · simp [updateFirst, head, ih numbered.2]

theorem eraseP_updateFirst {p : Connection → Bool} {f : Connection → Connection} (same : ∀ c, p (f c) = p c)
    (l : List Connection) : (updateFirst p f l).eraseP p = l.eraseP p := by
  induction l with
  | nil => rfl
  | cons c l ih =>
      rw [updateFirst]
      cases head : p c
      · rw [if_neg (by simp), List.eraseP_cons_of_neg (by simp [head]), List.eraseP_cons_of_neg (by simp [head]), ih]
      · rw [if_pos rfl, List.eraseP_cons_of_pos (by rw [same, head]), List.eraseP_cons_of_pos head]

theorem ne_of_mem_eraseP {l : List Connection} {id : Nat} (numbered : (l.map (·.id)).Nodup) {d : Connection}
    (mem : d ∈ l.eraseP (·.id == id)) : d.id ≠ id := by
  induction l with
  | nil => cases mem
  | cons c l ih =>
      rw [List.map_cons, List.nodup_cons] at numbered
      by_cases own : c.id = id
      · rw [List.eraseP_cons_of_pos (by simpa using own)] at mem
        rintro same
        exact numbered.1 (own ▸ same ▸ List.mem_map_of_mem mem)
      · rw [List.eraseP_cons_of_neg (by simpa using own)] at mem
        rcases List.mem_cons.1 mem with rfl | mem
        · exact own
        · exact ih numbered.2 mem

theorem find?_eraseP {id j : Nat} (other : id ≠ j) (l : List Connection) :
    (l.eraseP (·.id == id)).find? (·.id == j) = l.find? (·.id == j) := by
  induction l with
  | nil => rfl
  | cons c l ih =>
      by_cases head : c.id = id
      · simp [head, other]
      · simp [head, List.find?_cons, ih]

section

variable {g : Connection → Connection} {id j : Nat}

theorem find?_updateFirst (key : ∀ d, (f d).id = d.id) (l : List Connection) :
    (updateFirst (·.id == id) f l).find? (·.id == j) =
      (l.find? (·.id == j)).map fun d => if j = id then f d else d := by
  induction l with
  | nil => rfl
  | cons d l ih =>
      rw [updateFirst]
      by_cases head : d.id = id
      · subst head
        rw [if_pos (by simp)]
        by_cases hit : d.id = j
        · subst hit
          simp [key]
        · simp [hit, key, Ne.symm hit]
      · rw [if_neg (by simpa using head)]
        by_cases hit : d.id = j
        · subst hit
          simp [head]
        · simp [hit, ih]

theorem updateFirst_comm (other : j ≠ id) (key : ∀ d, (f d).id = d.id) (key' : ∀ d, (g d).id = d.id)
    (l : List Connection) : updateFirst (·.id == j) f (updateFirst (·.id == id) g l) =
      updateFirst (·.id == id) g (updateFirst (·.id == j) f l) := by
  induction l with
  | nil => rfl
  | cons d l ih =>
      by_cases hit : d.id = j
      · subst hit
        simp [updateFirst, key, other]
      · by_cases head : d.id = id
        · subst head
          simp [updateFirst, key', hit]
        · simp [updateFirst, hit, head, ih]

theorem updateFirst_append_left {p : Connection → Bool} {l : List Connection} (present : ∃ d ∈ l, p d)
    (l' : List Connection) : updateFirst p f (l ++ l') = updateFirst p f l ++ l' := by
  induction l with
  | nil => simp at present
  | cons d l ih =>
      rw [List.cons_append, updateFirst, updateFirst]
      split
      · rfl
      · rename_i skip
        obtain ⟨b, mem, hit⟩ := present
        rcases List.mem_cons.1 mem with rfl | mem
        · exact absurd hit skip
        · rw [ih ⟨b, mem, hit⟩, List.cons_append]

end

theorem eq_of_filterMap_nodup {α β : Type} {f : α → Option β} {l : List α} (nodup : (l.filterMap f).Nodup)
    {a b : α} (ha : a ∈ l) (hb : b ∈ l) {x : β} (fa : f a = some x) (fb : f b = some x) : a = b := by
  by_contra other
  have symmetric : Std.Symm fun a b => ∀ y, f a = some y → ∀ z, f b = some z → y ≠ z :=
    ⟨fun _ _ differ y hy z hz same => differ z hz y hy same.symm⟩
  exact (List.pairwise_filterMap.1 nodup).forall ha hb other x fa x fb rfl

end TraceGate
