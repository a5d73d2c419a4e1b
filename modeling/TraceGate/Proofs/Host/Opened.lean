import TraceGate.Proofs.Host.Paths
import TraceGate.Reactor.Receiver

namespace TraceGate.Host

variable {h h' : Host}

structure Quiet (h h' : Host) : Prop where
  tree : Tree.Firm h.tree h'.tree
  isOpen : ∀ e, h'.IsOpen e ↔ h.IsOpen e

/-- No endpoint has been opened or closed but the one that is given, if one is. -/
structure Yields (h : Host) (outcome : Except SystemError Endpoint × Host) : Prop where
  tree : Tree.Firm h.tree outcome.2.tree
  isOpen : ∀ e, outcome.2.IsOpen e ↔ h.IsOpen e ∨ outcome.1 = .ok e

theorem Quiet.refl (h : Host) : Quiet h h := ⟨.refl _, fun _ => Iff.rfl⟩

theorem Quiet.trans {h'' : Host} (first : Quiet h h') (second : Quiet h' h'') : Quiet h h'' :=
  ⟨first.tree.trans second.tree, fun e => (second.isOpen e).trans (first.isOpen e)⟩

theorem Quiet.of_endpoints (endpoints : h'.endpoints.map (·.1) = h.endpoints.map (·.1)) (tree : h'.tree = h.tree) :
    Quiet h h' := by
  refine ⟨fun place => ?_, fun e => ?_⟩
  · rw [tree]
    exact id
  · rw [IsOpen, endpoints, IsOpen]

theorem Still.quiet (still : Still h h') : Quiet h h' := .of_endpoints still.endpoints still.tree

theorem quiet_removeSocket (h : Host) (path : String) : Quiet h (h.removeSocket path).2 := by
  refine ⟨removeSocket_tree h path, fun e => ?_⟩
  unfold removeSocket
  split <;> rfl

theorem Yields.error (quiet : Quiet h h') (error : SystemError) : Yields h (.error error, h') :=
  ⟨quiet.tree, fun e => (quiet.isOpen e).trans (by simp)⟩

theorem Yields.after (first : Quiet h h') {outcome : Except SystemError Endpoint × Host} (second : Yields h' outcome) :
    Yields h outcome :=
  ⟨first.tree.trans second.tree, fun e => (second.isOpen e).trans (or_congr_left (first.isOpen e))⟩

theorem Yields.quiet {outcome : Except SystemError Endpoint × Host} (yields : Yields h outcome) {error : SystemError}
    (failed : outcome.1 = .error error) : Quiet h outcome.2 :=
  ⟨yields.tree, fun e => by simp [yields.isOpen e, failed]⟩

theorem yields_openEndpoint (h : Host) (kind : EndpointKind) (content : Content) :
    Yields h (.ok (h.openEndpoint kind content).1, (h.openEndpoint kind content).2) :=
  ⟨.refl _, fun e => (openEndpoint_isOpen h kind content e).trans (by simp [eq_comm])⟩

theorem yields_attempt (h : Host) (course : Host → Except SystemError Endpoint × Host) (step : ∀ k, Yields k (course k)) :
    Yields h (h.attempt course) := by
  unfold attempt
  split
  · exact step h
  · exact (step _).after (Still.setFaults h _).quiet
  · exact .error (Still.setFaults h _).quiet _

theorem yields_accept (h : Host) (e : Endpoint) : Yields h (h.accept e) := by
  unfold accept
  split
  · exact .error (.refl h) _
  · refine yields_attempt h _ fun k => ?_
    dsimp only
    split
    · rename_i address n rest known
      have taken : Still k (k.setContent e (.listener address rest)) := .setContent (by
        rw [address?_eq, known]
        rfl)
      exact (yields_openEndpoint _ _ _).after taken.quiet
    · exact .error (.refl k) _
  · exact .error (.refl h) _

theorem yields_listenNetwork (h : Host) (address : Net.Address) : Yields h (h.listenNetwork address) := by
  obtain ⟨listenFaults, ⟨e, k, opened, ok⟩ | ⟨error, failed⟩⟩ := listenNetwork_cases h address
  · rw [ok]
    have yields := yields_openEndpoint { h with listenFaults } .tcpListener (.listener (some address) [])
    rw [opened] at yields
    exact yields.after (.of_endpoints rfl rfl : Quiet h { h with listenFaults })
  · rw [failed]
    exact .error (Quiet.of_endpoints rfl rfl : Quiet h { h with listenFaults, refusals := h.refusals + 1 }) error

theorem yields_prepare {k : Host} {kind : EndpointKind} (content : Content) {e : Endpoint}
    (opened : (h.openEndpoint kind content).1 = e) (endpoints : k.endpoints = (h.openEndpoint kind content).2.endpoints)
    (tree : Tree.Firm h.tree k.tree) : Yields h (k.prepare e) := by
  have there (faults : List (Option Fault)) (e' : Endpoint) : ({ k with faults } : Host).IsOpen e' ↔ h.IsOpen e' ∨ e' = e := by
    rw [IsOpen, endpoints, ← opened]
    exact openEndpoint_isOpen h kind content e'
  obtain ⟨faults, ready | ⟨error, -, failed⟩⟩ := attempt_cases k (fun h => (.ok e, h)) fun _ h => h
  · rw [prepare, ready]
    exact ⟨tree, fun e' => (there faults e').trans (by simp [eq_comm])⟩
  · rw [prepare, failed]
    refine .error ⟨?_, fun e' => ?_⟩ error
    · rw [(close_shrinks _ e).tree_eq]
      exact tree
    · rw [close_isOpen, there]
      refine ⟨fun open' => open'.1.resolve_right open'.2, fun old => ⟨Or.inl old, ?_⟩⟩
      exact opened ▸ ne_openEndpoint old kind content

theorem yields_listenLocal (h : Host) (path : String) : Yields h (h.listenLocal path) := by
  unfold listenLocal
  split
  · exact .error (.refl h) _
  · refine yields_attempt h _ fun k => ?_
    dsimp only
    split
    · exact .error (.refl k) _
    · split
      · exact .error (.refl k) _
      · exact yields_prepare (.listener none []) rfl rfl (Tree.firm_put _ _ _)

theorem yields_relistenLocal (h : Host) (path : String) : Yields h (h.relistenLocal path) := by
  have removed := quiet_removeSocket h path
  unfold relistenLocal
  split <;> rename_i eq <;> rw [eq] at removed
  · exact (yields_listenLocal _ path).after removed
  · exact .error removed _

theorem yields_startTimer (h : Host) (seconds : Nat) : Yields h (h.startTimer seconds) := by
  refine yields_attempt h _ fun k => ?_
  dsimp only
  split
  · exact yields_openEndpoint k _ _
  · exact .error (.refl k) _

theorem yields_openFile (h : Host) (path : String) : Yields h (h.openFile path) := by
  refine yields_attempt h _ fun k => ?_
  dsimp only
  split
  · exact .error (.refl k) _
  · exact .error (.refl k) _
  · exact .error (.refl k) _
  · exact yields_openEndpoint k _ _

theorem yields_openPair (h : Host) : Yields h (h.openPair.1.map (·.1), h.openPair.2) := by
  obtain ⟨faults, opened | ⟨error, -, failed⟩⟩ := attempt_cases h (fun h => (.ok h.openLine.1, h.openLine.2)) fun _ h => h
  · rw [openPair, opened]
    have added : Quiet h ({ h with faults } : Host).addLine.2 := .of_endpoints rfl rfl
    exact (yields_openEndpoint _ .unixStream (.stream h.next)).after added
  · rw [openPair, failed]
    exact .error (Still.setFaults h faults).quiet error

end TraceGate.Host
