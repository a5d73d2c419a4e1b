import TraceGate.Proofs.Filter.Acceptance

namespace TraceGate.Filter.Chain

variable {c : Chain} {s : Segment} {l m : List Segment} {start : Nat}

def lay : (start : Nat) → List Segment → List Segment
  | _, [] => []
  | start, s :: l => { s with levelMin := start } :: lay (s.levelMax + 1) l

def insertAll (c : Chain) : List Segment → Except FilterError Chain
  | [] => .ok c
  | s :: l => (c.insert s).bind fun (_, c) => c.insertAll l

theorem levels_lay (start : Nat) (m : List Segment) : (lay start m).map (·.levelMax) = m.map (·.levelMax) := by
  induction m generalizing start with
  | nil => rfl
  | cons s m ih => simp [lay, ih]

theorem place_lay (s : Segment) (start : Nat) (m : List Segment) :
    place s start (lay start m) = lay start (m.orderedInsert Ends s) := by
  induction m generalizing start with
  | nil => rfl
  | cons t m ih =>
      by_cases below : t.levelMax < s.levelMax
      · rw [List.orderedInsert_of_not_le Ends m (Nat.not_le.2 below)]
        simp [lay, place, below, ih]
      · rw [List.orderedInsert_cons_of_le Ends m (Nat.not_lt.1 below)]
        simp [lay, place, below]

theorem closeSegments_lay (start : Nat) (filled : m ≠ []) :
    closeSegments (lay start m) = lay start (closeSegments m) := by
  induction m using closeSegments.induct generalizing start with
  | case1 => exact absurd rfl filled
  | case2 s =>
      by_cases short : s.levelMax < maxLevel
      · simp [lay, closeSegments, short]
      · simp [lay, closeSegments, short]
  | case3 s t m ih =>
      have rest := ih (s.levelMax + 1) (by simp)
      simp only [lay, closeSegments] at rest ⊢
      rw [rest]

theorem close_lay (m : List Segment) : (⟨lay 0 m⟩ : Chain).close = ⟨lay 0 (closeSegments m)⟩ := by
  rw [close]
  by_cases empty : m = []
  · rw [empty]
    rfl
  · rw [closeSegments_lay 0 empty]

theorem perm_orderedInsert_append (s : Segment) (m l : List Segment) :
    (m.orderedInsert Ends s ++ l).Perm (m ++ s :: l) :=
  ((List.perm_orderedInsert Ends s m).append_right l).trans List.perm_middle.symm

theorem nodup_orderedInsert (apart : (m.map (·.levelMax)).Nodup) (free : s.levelMax ∉ m.map (·.levelMax)) :
    ((m.orderedInsert Ends s).map (·.levelMax)).Nodup := by
  rw [((List.perm_orderedInsert Ends s m).map _).nodup_iff, List.map_cons, List.nodup_cons]
  exact ⟨free, apart⟩

theorem ordered_of_sorted (sorted : m.Pairwise Ends) (apart : (m.map (·.levelMax)).Nodup) : Ordered ⟨m⟩ :=
  (sorted.and (List.pairwise_map.1 apart)).imp fun both => Nat.lt_of_le_of_ne both.1 both.2

theorem Ordered.orderedInsert (ordered : Ordered ⟨m⟩) (free : s.levelMax ∉ m.map (·.levelMax)) :
    Ordered ⟨m.orderedInsert Ends s⟩ := by
  apply ordered_of_sorted
  · exact List.Pairwise.orderedInsert s m (ordered.imp Nat.le_of_lt)
  · exact nodup_orderedInsert (List.pairwise_map.2 (ordered.imp Nat.ne_of_lt)) free

theorem insert_lay (free : s.levelMax ∉ m.map (·.levelMax)) :
    ∃ i, (⟨lay 0 m⟩ : Chain).insert s = .ok (i, ⟨lay 0 (m.orderedInsert Ends s)⟩) := by
  have apart : ¬((lay 0 m).any fun t => t.levelMax = s.levelMax) = true := by
    rw [← levels_lay 0 m] at free
    simpa using free
  rw [insert, if_neg apart, place_lay]
  exact ⟨_, rfl⟩

theorem Ordered.eq_of_perm (ordered : Ordered ⟨l⟩) (ordered' : Ordered ⟨m⟩) (perm : l.Perm m) : l = m := by
  have apart (s t : Segment) (_ : s ∈ l) (_ : t ∈ m) (below : s.levelMax < t.levelMax)
      (above : t.levelMax < s.levelMax) : s = t := absurd below (Nat.lt_asymm above)
  exact List.Perm.eq_of_pairwise apart ordered ordered' perm

theorem insertAll_lay (ordered : Ordered ⟨m⟩) (apart : ((m ++ l).map (·.levelMax)).Nodup) :
    ∃ n, n.Perm (m ++ l) ∧ Ordered ⟨n⟩ ∧ insertAll ⟨lay 0 m⟩ l = .ok ⟨lay 0 n⟩ := by
  induction l generalizing m with
  | nil => exact ⟨m, by simp, ordered, rfl⟩
  | cons s l ih =>
      have perm := perm_orderedInsert_append s m l
      have free : s.levelMax ∉ m.map (·.levelMax) := by
        rw [List.map_append, List.map_cons, List.nodup_append] at apart
        exact fun taken => apart.2.2 _ taken _ List.mem_cons_self rfl
      obtain ⟨i, inserted⟩ := insert_lay free
      obtain ⟨n, same, ordered, built⟩ := ih (ordered.orderedInsert free) ((perm.map _).nodup_iff.2 apart)
      refine ⟨n, same.trans perm, ordered, ?_⟩
      rw [insertAll, inserted]
      exact built

theorem insertAll_refused (apart : (m.map (·.levelMax)).Nodup) (twice : ¬((m ++ l).map (·.levelMax)).Nodup) :
    ∃ before s after c, l = before ++ s :: after ∧ s.levelMax ∈ (m ++ before).map (·.levelMax) ∧
      insertAll ⟨lay 0 m⟩ before = .ok c ∧ c.insert s = .error (.duplicateLevel s.levelMax) ∧
      insertAll ⟨lay 0 m⟩ l = .error (.duplicateLevel s.levelMax) := by
  induction l generalizing m with
  | nil => simp [apart] at twice
  | cons s l ih =>
      by_cases taken : s.levelMax ∈ m.map (·.levelMax)
      · have refused : (⟨lay 0 m⟩ : Chain).insert s = .error (.duplicateLevel s.levelMax) := by
          rw [← levels_lay 0 m] at taken
          exact if_pos (by simpa using taken)
        refine ⟨[], s, l, ⟨lay 0 m⟩, rfl, by simpa using taken, rfl, refused, ?_⟩
        rw [insertAll, refused]
        rfl
      · obtain ⟨i, inserted⟩ := insert_lay taken
        obtain ⟨before, t, after, c, rfl, known, built, refused, failed⟩ :=
          ih (nodup_orderedInsert apart taken) (mt ((perm_orderedInsert_append s m l).map _).nodup_iff.1 twice)
        refine ⟨s :: before, t, after, c, rfl, ?_, ?_, refused, ?_⟩
        · exact ((perm_orderedInsert_append s m before).map _).mem_iff.1 known
        · rw [insertAll, inserted]
          exact built
        · rw [insertAll, inserted]
          exact failed

/-- Segments with different levels lead to one chain, open or closed, in whatever order they are inserted: they stand in
the order of their levels, one behind the other. If two of them share a level, the second one is refused in every
order. -/
theorem insertAll_any_order (l : List Segment) :
    ((l.map (·.levelMax)).Nodup → ∃ m, m.Perm l ∧ Ordered ⟨m⟩ ∧ ∀ l', l'.Perm l →
      ∃ c, insertAll {} l' = .ok c ∧ c = ⟨lay 0 m⟩ ∧ c.close = ⟨lay 0 (closeSegments m)⟩) ∧
    (¬(l.map (·.levelMax)).Nodup → ∀ l', l'.Perm l → ∃ before s after c, l' = before ++ s :: after ∧
      s.levelMax ∈ before.map (·.levelMax) ∧ insertAll {} before = .ok c ∧
      c.insert s = .error (.duplicateLevel s.levelMax) ∧ insertAll {} l' = .error (.duplicateLevel s.levelMax)) := by
  constructor
  · intro apart
    obtain ⟨m, perm, ordered, -⟩ := insertAll_lay (m := []) (l := l) .nil apart
    refine ⟨m, perm, ordered, fun l' same => ?_⟩
    obtain ⟨n, perm', ordered', built⟩ := insertAll_lay (m := []) (l := l') .nil ((same.map _).nodup_iff.2 apart)
    obtain rfl := ordered'.eq_of_perm ordered (perm'.trans (same.trans perm.symm))
    exact ⟨_, built, rfl, close_lay n⟩
  · intro twice l' same
    exact insertAll_refused (m := []) (l := l') List.nodup_nil (mt (same.map _).nodup_iff.1 twice)

end TraceGate.Filter.Chain
