import Mathlib.Data.List.Nodup
import Mathlib.Data.List.Perm.Subperm
import Mathlib.Order.Nat
import Mathlib.Tactic.ByContra
import TraceGate.Proofs.Host.Still

namespace TraceGate.Host

def IsOpen (h : Host) (e : Endpoint) : Prop := e ∈ h.endpoints.map (·.1)

/-- Open endpoints have different descriptors, and the number of an endpoint is never given again. -/
structure Sound (h : Host) : Prop where
  descriptors : (h.endpoints.map fun p => p.1.fd).Nodup
  numbers : ∀ e, h.IsOpen e → e.id < h.next

/-- The later host has every endpoint of the earlier one, and others under new numbers only. -/
structure Grows (h h' : Host) : Prop where
  sound : h.Sound → h'.Sound
  next_le : h.next ≤ h'.next
  kept : ∀ e, h.IsOpen e → h'.IsOpen e
  opened : ∀ e, h'.IsOpen e → h.IsOpen e ∨ h.next ≤ e.id
  refusals_le : h.refusals ≤ h'.refusals

variable {h h' : Host} {e e' : Endpoint}

theorem isOpen_iff : h.IsOpen e ↔ ∃ content, (e, content) ∈ h.endpoints := by
  simp [IsOpen]

theorem Sound.eq_of_fd (sound : h.Sound) (he : h.IsOpen e) (he' : h.IsOpen e') (hfd : e.fd = e'.fd) :
    e = e' := by
  obtain ⟨content, mem⟩ := isOpen_iff.1 he
  obtain ⟨content', mem'⟩ := isOpen_iff.1 he'
  have same := List.inj_on_of_nodup_map sound.descriptors mem mem' hfd
  exact congrArg Prod.fst same

theorem Grows.refl (h : Host) : Grows h h :=
  ⟨id, le_refl _, fun _ => id, fun _ => Or.inl, le_rfl⟩

theorem Grows.trans {h'' : Host} (first : Grows h h') (second : Grows h' h'') : Grows h h'' where
  sound := second.sound ∘ first.sound
  next_le := first.next_le.trans second.next_le
  kept e := second.kept e ∘ first.kept e
  opened e he := by
    rcases second.opened e he with old | new
    · exact first.opened e old
    · exact Or.inr (first.next_le.trans new)
  refusals_le := first.refusals_le.trans second.refusals_le

theorem Grows.of_endpoints (endpoints : h'.endpoints.map (·.1) = h.endpoints.map (·.1))
    (next_le : h.next ≤ h'.next) (refusals_le : h.refusals ≤ h'.refusals) : Grows h h' where
  sound sound := by
    have same : ∀ k : Host, (k.endpoints.map fun p => p.1.fd) = (k.endpoints.map (·.1)).map (·.fd) := by
      intro k
      simp
    refine ⟨?_, fun e he => ?_⟩
    · rw [same, endpoints, ← same]
      exact sound.descriptors
    · rw [IsOpen, endpoints] at he
      exact (sound.numbers e he).trans_le next_le
  next_le := next_le
  kept e he := by rwa [IsOpen, endpoints]
  opened e he := by
    rw [IsOpen, endpoints] at he
    exact Or.inl he
  refusals_le := refusals_le

theorem Still.grows (still : Still h h') : Grows h h' :=
  .of_endpoints still.endpoints still.next_le still.refusals.ge

theorem isOpen_eq_true {fd : Nat} : h.isOpen fd = true ↔ fd ∈ h.endpoints.map fun p => p.1.fd := by
  simp [isOpen]

theorem freeFrom_spec (h : Host) (fd tries : Nat) :
    h.isOpen (h.freeFrom fd tries) = false ∨
      h.freeFrom fd tries = fd + tries ∧ ∀ n, fd ≤ n → n < fd + tries → h.isOpen n = true := by
  induction tries generalizing fd with
  | zero => exact Or.inr ⟨rfl, fun n _ _ => by omega⟩
  | succ tries ih =>
      by_cases taken : h.isOpen fd = true
      · rw [freeFrom, if_pos taken]
        rcases ih (fd + 1) with free | ⟨stop, passed⟩
        · exact Or.inl free
        · refine Or.inr ⟨by omega, fun n low high => ?_⟩
          rcases Nat.eq_or_lt_of_le low with rfl | above
          · exact taken
          · exact passed n above (by omega)
      · rw [freeFrom, if_neg taken]
        exact Or.inl (by simpa using taken)

theorem nextDescriptor_free (h : Host) : h.isOpen h.nextDescriptor = false := by
  rw [nextDescriptor]
  generalize h.numbers.head?.getD firstDescriptor = fd
  rcases freeFrom_spec h fd h.endpoints.length with free | ⟨stop, passed⟩
  · exact free
  · -- One number more than there are endpoints cannot all be taken.
    by_contra taken
    rw [Bool.not_eq_false, stop] at taken
    have subset : List.range' fd (h.endpoints.length + 1) ⊆ h.endpoints.map fun p => p.1.fd := by
      intro n mem
      rw [List.mem_range'_1] at mem
      apply isOpen_eq_true.1
      rcases Nat.lt_or_ge n (fd + h.endpoints.length) with below | above
      · exact passed n mem.1 below
      · rwa [show n = fd + h.endpoints.length by omega]
    have bound := ((List.nodup_range' (s := fd) (n := h.endpoints.length + 1)).subperm subset).length_le
    simp only [List.length_range', List.length_map] at bound
    omega

theorem openEndpoint_isOpen (h : Host) (kind : EndpointKind) (content : Content) (e : Endpoint) :
    (h.openEndpoint kind content).2.IsOpen e ↔ h.IsOpen e ∨ e = (h.openEndpoint kind content).1 := by
  simp [IsOpen, openEndpoint]

theorem grows_openEndpoint (h : Host) (kind : EndpointKind) (content : Content) :
    Grows h (h.openEndpoint kind content).2 where
  sound sound := by
    refine ⟨?_, fun e he => ?_⟩
    · have free := nextDescriptor_free h
      rw [← Bool.not_eq_true, isOpen_eq_true] at free
      simp only [openEndpoint, List.map_append, List.map_cons, List.map_nil]
      refine List.nodup_append.2 ⟨sound.descriptors, List.nodup_singleton _, ?_⟩
      rintro fd mem _ last rfl
      rw [List.mem_singleton] at last
      exact free (last ▸ mem)
    · rcases (openEndpoint_isOpen h kind content e).1 he with old | rfl
      · exact (sound.numbers e old).trans (Nat.lt_succ_self _)
      · exact Nat.lt_succ_self _
  next_le := Nat.le_succ _
  kept e he := (openEndpoint_isOpen h kind content e).2 (Or.inl he)
  opened e he := by
    rcases (openEndpoint_isOpen h kind content e).1 he with old | rfl
    · exact Or.inl old
    · exact Or.inr le_rfl
  refusals_le := le_rfl

theorem ne_openEndpoint (isOpen : h.IsOpen e) (kind : EndpointKind) (content : Content) :
    e ≠ (h.openEndpoint kind content).1 := by
  rintro rfl
  have free := nextDescriptor_free h
  rw [← Bool.not_eq_true, isOpen_eq_true] at free
  obtain ⟨content, mem⟩ := isOpen_iff.1 isOpen
  exact free (List.mem_map.2 ⟨_, mem, rfl⟩)

structure Shrinks (h h' : Host) : Prop where
  endpoints : h'.endpoints.Sublist h.endpoints
  next_eq : h'.next = h.next
  tree_eq : h'.tree = h.tree
  outbound : ∀ n, h'.outbound? n = h.outbound? n
  stored : h'.stored = h.stored
  refusals : h'.refusals = h.refusals

theorem Shrinks.refl (h : Host) : Shrinks h h := ⟨List.Sublist.refl _, rfl, rfl, fun _ => rfl, rfl, rfl⟩

theorem Shrinks.trans {h'' : Host} (first : Shrinks h h') (second : Shrinks h' h'') : Shrinks h h'' :=
  ⟨second.endpoints.trans first.endpoints, second.next_eq.trans first.next_eq, second.tree_eq.trans first.tree_eq,
    fun n => (second.outbound n).trans (first.outbound n), second.stored.trans first.stored,
    second.refusals.trans first.refusals⟩

theorem Shrinks.sound (shrinks : Shrinks h h') (sound : h.Sound) : h'.Sound := by
  refine ⟨sound.descriptors.sublist (shrinks.endpoints.map _), fun e he => ?_⟩
  rw [shrinks.next_eq]
  exact sound.numbers e ((shrinks.endpoints.map _).subset he)

theorem close_endpoints (h : Host) (e : Endpoint) :
    (h.close e).endpoints = h.endpoints.filter (·.1 != e) ∧ (h.close e).next = h.next ∧ (h.close e).tree = h.tree ∧
      (h.close e).stored = h.stored ∧ (h.close e).refusals = h.refusals := by
  have fold : ∀ (pending : List Nat) (k : Host), (pending.foldl closeHome k).endpoints = k.endpoints ∧
      (pending.foldl closeHome k).next = k.next ∧ (pending.foldl closeHome k).tree = k.tree ∧
      (pending.foldl closeHome k).stored = k.stored ∧ (pending.foldl closeHome k).refusals = k.refusals := by
    intro pending
    induction pending with
    | nil => exact fun k => ⟨rfl, rfl, rfl, rfl, rfl⟩
    | cons n pending ih => exact fun k => ih (k.closeHome n)
  unfold close
  dsimp only
  split
  · exact ⟨rfl, rfl, rfl, rfl, rfl⟩
  · exact fold _ _
  · exact ⟨rfl, rfl, rfl, rfl, rfl⟩

theorem close_isOpen (h : Host) (e e' : Endpoint) : (h.close e).IsOpen e' ↔ h.IsOpen e' ∧ e' ≠ e := by
  rw [isOpen_iff, isOpen_iff, (close_endpoints h e).1]
  simp

theorem close_shrinks (h : Host) (e : Endpoint) : Shrinks h (h.close e) := by
  obtain ⟨endpoints, next, tree, stored, refusals⟩ := close_endpoints h e
  refine ⟨?_, next, tree, outbound?_close h e, stored, refusals⟩
  rw [endpoints]
  exact List.filter_sublist

/-- The outcome of an operation that opens endpoints of some kinds, one at a time. -/
structure Opens (kinds : EndpointKind → Prop) (h : Host) (outcome : Except SystemError Endpoint × Host) :
    Prop where
  grows : Grows h outcome.2
  fresh : ∀ e, outcome.1 = .ok e → outcome.2.IsOpen e ∧ h.next ≤ e.id ∧ kinds e.kind

variable {α : Type} {kinds : EndpointKind → Prop}

theorem Opens.error (grows : Grows h h') (error : SystemError) : Opens kinds h (.error error, h') :=
  ⟨grows, fun _ ok => by cases ok⟩

theorem Opens.after (first : Grows h h') {outcome : Except SystemError Endpoint × Host}
    (second : Opens kinds h' outcome) : Opens kinds h outcome := by
  refine ⟨first.trans second.grows, fun e ok => ?_⟩
  obtain ⟨isOpen, new, kind⟩ := second.fresh e ok
  exact ⟨isOpen, first.next_le.trans new, kind⟩

theorem Opens.mono {kinds' : EndpointKind → Prop} {outcome : Except SystemError Endpoint × Host}
    (opens : Opens kinds h outcome) (weaker : ∀ kind, kinds kind → kinds' kind) : Opens kinds' h outcome := by
  refine ⟨opens.grows, fun e ok => ?_⟩
  obtain ⟨isOpen, new, kind⟩ := opens.fresh e ok
  exact ⟨isOpen, new, weaker _ kind⟩

theorem opens_openEndpoint (kinds : EndpointKind → Prop) (h : Host) (kind : EndpointKind)
    (content : Content) (ok : kinds kind) :
    Opens kinds h (.ok (h.openEndpoint kind content).1, (h.openEndpoint kind content).2) := by
  refine ⟨grows_openEndpoint h kind content, ?_⟩
  rintro e ⟨⟩
  exact ⟨(openEndpoint_isOpen h kind content _).2 (Or.inr rfl), le_rfl, ok⟩

theorem opens_attempt (h : Host) (course : Host → Except SystemError Endpoint × Host)
    (step : ∀ k, Opens kinds k (course k)) : Opens kinds h (h.attempt course) := by
  unfold attempt
  split
  · exact step h
  · exact (step _).after (Still.setFaults h _).grows
  · exact Opens.error (Still.setFaults h _).grows _

theorem acceptedKind_ne (kind : EndpointKind) : acceptedKind kind ≠ .tcpListener := by
  cases kind <;> simp [acceptedKind]

theorem opens_accept (h : Host) (e : Endpoint) : Opens (· ≠ .tcpListener) h (h.accept e) := by
  unfold accept
  split
  · exact Opens.error (Grows.refl h) _
  · apply opens_attempt
    intro k
    dsimp only
    split
    · rename_i address n rest known
      have taken : Still k (k.setContent e (.listener address rest)) := .setContent (by
        rw [address?_eq, known]
        rfl)
      exact (opens_openEndpoint (· ≠ .tcpListener) _ _ _ (acceptedKind_ne e.kind)).after taken.grows
    · exact Opens.error (Grows.refl k) _
  · exact Opens.error (Grows.refl h) _

theorem opens_prepare {k : Host} {kind : EndpointKind} (content : Content) {e : Endpoint}
    (opened : (h.openEndpoint kind content).1 = e) (endpoints : k.endpoints = (h.openEndpoint kind content).2.endpoints)
    (next : k.next = h.next + 1) (refusals : k.refusals = h.refusals) : Opens (· = kind) h (k.prepare e) := by
  have opens := opens_openEndpoint (· = kind) h kind content rfl
  have grows (faults : List (Option Fault)) : Grows h { k with faults } :=
    opens.grows.trans (.of_endpoints (by rw [endpoints]) next.ge refusals.ge)
  obtain ⟨faults, ready | ⟨error, -, failed⟩⟩ := attempt_cases k (fun h => (.ok e, h)) fun _ h => h
  · rw [prepare, ready]
    refine ⟨grows faults, ?_⟩
    rintro _ ⟨⟩
    obtain ⟨isOpen, new, kind⟩ := opens.fresh e (congrArg _ opened)
    exact ⟨by rwa [IsOpen, endpoints], new, kind⟩
  · rw [prepare, failed]
    refine .error ⟨fun sound => (close_shrinks _ e).sound ((grows faults).sound sound), ?_, fun e' isOpen => ?_, fun e' isOpen => ?_, ?_⟩ _
    · exact (grows faults).next_le.trans (close_shrinks _ e).next_eq.ge
    · exact (close_isOpen _ e e').2 ⟨(grows faults).kept e' isOpen, opened ▸ ne_openEndpoint isOpen kind content⟩
    · exact (grows faults).opened e' ((close_isOpen _ e e').1 isOpen).1
    · exact (grows faults).refusals_le.trans (close_shrinks _ e).refusals.ge

theorem opens_listenLocal (h : Host) (path : String) :
    Opens (· = .unixListener) h (h.listenLocal path) := by
  unfold listenLocal
  split
  · exact Opens.error (Grows.refl h) _
  · apply opens_attempt
    intro k
    dsimp only
    split
    · exact Opens.error (Grows.refl k) _
    · split
      · exact Opens.error (Grows.refl k) _
      · exact opens_prepare (.listener none []) rfl rfl rfl rfl

theorem attemptListen_leaves {α : Type} {P : Except SystemError α × Host → Prop}
    {course : Host → Except SystemError α × Host} (within : ∀ listenFaults, P (course { h with listenFaults }))
    (failed : ∀ error listenFaults, P (.error error, { h with listenFaults })) : P (h.attemptListen course) := by
  unfold attemptListen
  split
  · exact within h.listenFaults
  · exact within _
  · exact failed _ _

theorem listenNetwork_cases (h : Host) (address : Net.Address) : ∃ listenFaults : List (Option SystemError),
    (∃ e k, ({ h with listenFaults } : Host).openEndpoint .tcpListener (.listener (some address) []) = (e, k) ∧
      h.listenNetwork address = (.ok e, k)) ∨
    ∃ error, h.listenNetwork address = (.error error, { h with listenFaults, refusals := h.refusals + 1 }) := by
  refine attemptListen_leaves (P := fun outcome => ∃ listenFaults : List (Option SystemError),
    (∃ e k, ({ h with listenFaults } : Host).openEndpoint .tcpListener (.listener (some address) []) = (e, k) ∧
      countRefusal outcome = (.ok e, k)) ∨
    ∃ error, countRefusal outcome = (.error error, { h with listenFaults, refusals := h.refusals + 1 }))
    (fun listenFaults => ⟨listenFaults, ?_⟩) fun error listenFaults => ⟨listenFaults, Or.inr ⟨error, rfl⟩⟩
  dsimp only
  split
  · exact Or.inl ⟨_, _, rfl, rfl⟩
  · exact Or.inr ⟨_, rfl⟩

theorem opens_listenNetwork (h : Host) (address : Net.Address) :
    Opens (· = .tcpListener) h (h.listenNetwork address) := by
  obtain ⟨listenFaults, ⟨e, k, opened, ok⟩ | ⟨error, failed⟩⟩ := listenNetwork_cases h address
  · rw [ok]
    have opens := opens_openEndpoint (· = .tcpListener) { h with listenFaults } .tcpListener (.listener (some address) []) rfl
    rw [opened] at opens
    exact opens.after (.of_endpoints rfl le_rfl le_rfl : Grows h { h with listenFaults })
  · rw [failed]
    exact .error (Grows.of_endpoints rfl le_rfl (Nat.le_succ h.refusals) : Grows h { h with listenFaults, refusals := h.refusals + 1 }) error

theorem listenNetwork_ok {address : Net.Address} (unrefused : (h.listenNetwork address).2.refusals = h.refusals) :
    ∃ e, (h.listenNetwork address).1 = .ok e := by
  obtain ⟨listenFaults, ⟨e, k, opened, ok⟩ | ⟨error, failed⟩⟩ := listenNetwork_cases h address
  · exact ⟨e, congrArg Prod.fst ok⟩
  · rw [failed] at unrefused
    exact absurd unrefused (Nat.succ_ne_self _)

theorem opens_startTimer (h : Host) (seconds : Nat) :
    Opens (· ≠ .tcpListener) h (h.startTimer seconds) := by
  apply opens_attempt
  intro k
  dsimp only
  split
  · exact opens_openEndpoint _ k _ _ (by decide)
  · exact Opens.error (Grows.refl k) _

theorem opens_openFile (h : Host) (path : String) : Opens (· ≠ .tcpListener) h (h.openFile path) := by
  apply opens_attempt
  intro k
  dsimp only
  split
  · exact Opens.error (Grows.refl k) _
  · exact Opens.error (Grows.refl k) _
  · exact Opens.error (Grows.refl k) _
  · exact opens_openEndpoint _ k _ _ (by decide)

theorem opens_openPair (h : Host) : Opens (· ≠ .tcpListener) h (h.openPair.1.map (·.1), h.openPair.2) := by
  obtain ⟨faults, opened | ⟨error, -, failed⟩⟩ := attempt_cases h (fun h => (.ok h.openLine.1, h.openLine.2)) fun _ h => h
  · rw [openPair, opened]
    have added : Grows h ({ h with faults } : Host).addLine.2 := .of_endpoints rfl (Nat.le_succ _) le_rfl
    exact (opens_openEndpoint _ _ .unixStream (.stream h.next) (by decide)).after added
  · rw [openPair, failed]
    exact .error (Still.setFaults h faults).grows error

theorem grows_removeSocket (h : Host) (path : String) : Grows h (h.removeSocket path).2 := by
  unfold removeSocket
  split
  · exact Grows.of_endpoints rfl le_rfl le_rfl
  · exact Grows.refl h
  · exact Grows.refl h

theorem opens_relistenLocal (h : Host) (path : String) :
    Opens (· = .unixListener) h (h.relistenLocal path) := by
  have cleared := grows_removeSocket h path
  unfold relistenLocal
  split <;> rename_i eq <;> rw [eq] at cleared
  · exact (opens_listenLocal _ path).after cleared
  · exact .error cleared _

end TraceGate.Host
