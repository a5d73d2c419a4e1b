import Mathlib.Order.Nat
import TraceGate.Proofs.Host.Lines

namespace TraceGate.Host

variable {h h' h'' : Host} {e : Endpoint}

def Content.address? : Content → Option Net.Address
  | .listener address _ => address
  | _ => none

theorem address?_eq (h : Host) (e : Endpoint) : h.address? e = (h.content? e).bind Content.address? := by
  unfold Host.address?
  rcases h.content? e with _ | _ | _ | _ | _ <;> rfl

theorem content?_setContent (h : Host) (e : Endpoint) (content : Content) (e' : Endpoint) :
    (h.setContent e content).content? e' = if e' = e then (h.content? e').map fun _ => content else h.content? e' := by
  unfold content? setContent
  induction h.endpoints with
  | nil => split <;> rfl
  | cons p endpoints ih =>
      obtain ⟨k, old⟩ := p
      rw [List.map_cons]
      by_cases own : k = e
      · subst own
        by_cases here : e' = k
        · subst here
          simp
        · have differ : (e' == k) = false := by simpa using here
          simpa [List.lookup_cons, differ, here] using ih
      · rw [if_neg own, List.lookup_cons, List.lookup_cons, ih]
        by_cases here : e' = k
        · subst here
          simp [own]
        · have differ : (e' == k) = false := by simpa using here
          simp [differ]

/-- The same endpoints are open, listeners listen where they did, and no attempt to listen was refused. -/
structure Still (h h' : Host) : Prop where
  endpoints : h'.endpoints.map (·.1) = h.endpoints.map (·.1)
  tree : h'.tree = h.tree
  next_le : h.next ≤ h'.next
  refusals : h'.refusals = h.refusals
  address? : ∀ e, h'.address? e = h.address? e

namespace Still

theorem refl (h : Host) : Still h h := ⟨rfl, rfl, le_rfl, rfl, fun _ => rfl⟩

theorem trans (first : Still h h') (second : Still h' h'') : Still h h'' :=
  ⟨second.endpoints.trans first.endpoints, second.tree.trans first.tree, first.next_le.trans second.next_le,
    second.refusals.trans first.refusals, fun e => (second.address? e).trans (first.address? e)⟩

theorem of_endpoints (same : h'.endpoints = h.endpoints) (tree : h'.tree = h.tree) (next_le : h.next ≤ h'.next)
    (refusals : h'.refusals = h.refusals) : Still h h' := by
  refine ⟨by rw [same], tree, next_le, refusals, fun e => ?_⟩
  rw [address?_eq, content?, same, ← content?, ← address?_eq]

theorem setContent {content : Content} (same : content.address? = h.address? e) : Still h (h.setContent e content) := by
  refine ⟨?_, rfl, le_rfl, rfl, fun e' => ?_⟩
  · simp only [Host.setContent, List.map_map]
    refine List.map_congr_left fun p _ => ?_
    by_cases own : p.1 = e <;> simp [own]
  · rw [address?_eq, address?_eq, content?_setContent]
    split
    · rename_i own
      subst own
      cases known : h.content? e' with
      | none => rfl
      | some old =>
          rw [address?_eq, known] at same
          exact same
    · rfl

theorem setFaults (h : Host) (faults : List (Option Fault)) : Still h { h with faults } :=
  of_endpoints rfl rfl le_rfl rfl

theorem attempt {α : Type} {course : Host → Except SystemError α × Host} {partly : Nat → Host → Host}
    (step : ∀ faults, Still h (course { h with faults }).2)
    (failed : ∀ taken faults, Still h (partly taken { h with faults })) : Still h (h.attempt course partly).2 :=
  attempt_leaves step failed

theorem read (h : Host) (e : Endpoint) : Still h (h.read e).2 := by
  unfold Host.read
  split
  · exact refl h
  · refine attempt (fun faults => ?_) fun _ => setFaults h
    split
    · exact setFaults h faults
    · split <;> exact of_endpoints rfl rfl le_rfl rfl
  · rename_i known
    refine attempt (fun faults => (setFaults h faults).trans (setContent ?_)) fun _ => setFaults h
    rw [address?_eq, show ({ h with faults } : Host).content? e = h.content? e from rfl, known]
    rfl
  · exact refl h

theorem send (h : Host) (e : Endpoint) (n : Nat) (bytes : Bytes) : Still h (h.send e n bytes).2 := by
  unfold Host.send
  split
  · exact refl h
  · split
    · dsimp only
      split <;> exact of_endpoints rfl rfl le_rfl rfl
    · exact refl h

theorem storeAt {node place : Nat} (known : h.content? e = some (.file node place)) (faults : List (Option Fault))
    (bytes : Bytes) : Still h (({ h with faults } : Host).storeAt e node place bytes) := by
  have stored : Still h (({ h with faults } : Host).setStored node (overwritten (h.storedBytes node) place bytes)) :=
    of_endpoints rfl rfl le_rfl rfl
  refine stored.trans (setContent ?_)
  rw [stored.address?, address?_eq, known]
  rfl

theorem write (h : Host) (e : Endpoint) (bytes : Bytes) : Still h (h.write e bytes).2 := by
  unfold Host.write
  split
  · exact refl h
  · split
    · exact refl h
    · exact attempt (fun faults => (setFaults h faults).trans (send _ _ _ _)) fun _ faults =>
        of_endpoints rfl rfl le_rfl rfl
  · rename_i known
    split
    · exact refl h
    · exact attempt (fun faults => storeAt known faults bytes) fun taken faults => storeAt known faults _
  · exact refl h

theorem readTimer (h : Host) : Still h h.readTimer.2 := attempt (setFaults h) fun _ => setFaults h

theorem fill (receiver : Receiver) (h : Host) : Still h (receiver.fill h).2.2 := by
  unfold Receiver.fill
  split
  · exact refl h
  · rename_i e _
    have step := read h e
    split <;> rename_i eq <;> rw [eq] at step <;> exact step

theorem sendFrom (receiver : Receiver) (bytes : Bytes) (h : Host) : Still h (receiver.send bytes h).2 := by
  unfold Receiver.send
  split
  · exact refl h
  · exact write h _ bytes

theorem label (h : Host) (name : String) (n : Nat) : Still h (h.label name n) := by
  unfold Host.label
  cases h.peers.lookup name <;> exact of_endpoints rfl rfl le_rfl rfl

theorem enqueue (h : Host) (e : Endpoint) (name : String) : Still h (h.enqueue e name) := by
  unfold Host.enqueue
  split
  · rename_i address pending known
    have added : Still h h.addLine.2 := of_endpoints rfl rfl (Nat.le_succ _) rfl
    refine (added.trans (setContent ?_)).trans (label _ name _)
    rw [address?_eq, show h.addLine.2.content? e = h.content? e from rfl, known]
    rfl
  · exact refl h

theorem writeLine (h : Host) (n : Nat) (bytes : Bytes) : Still h (h.writeLine n bytes).2 := by
  unfold Host.writeLine
  split
  · exact refl h
  · split
    · exact refl h
    · split
      · exact of_endpoints rfl rfl le_rfl rfl
      · exact refl h

theorem drainLine (h : Host) (n : Nat) : Still h (h.drainLine n).2 := by
  unfold Host.drainLine
  split
  · exact refl h
  · exact of_endpoints rfl rfl le_rfl rfl

end Still

inductive PeerStep (h : Host) : Host → Prop
  | connectLocal {path name : String} {h' : Host} (ok : h.connectLocal path name = .ok h') : PeerStep h h'
  | connectNetwork {e : Endpoint} {name : String} {h' : Host} (ok : h.connectNetwork e name = .ok h') : PeerStep h h'
  | write (name : String) (bytes : Bytes) : PeerStep h (h.peerWrite name bytes).2
  | read (name : String) : PeerStep h (h.peerRead name).2
  | close (name : String) : PeerStep h (h.peerClose name).2

theorem PeerStep.still (step : PeerStep h h') : Still h h' := by
  cases step with
  | @connectLocal path name _ ok =>
      unfold Host.connectLocal at ok
      split at ok
      · cases ok
      · rcases found : h.tree.find path with error | entry <;> rw [found] at ok
        · cases ok
        · rcases entry with _ | _ | id <;> dsimp only [Except.bind] at ok
          · cases ok
          · cases ok
          · split at ok <;> cases ok
            exact .enqueue h _ name
  | @connectNetwork e name _ ok =>
      unfold Host.connectNetwork at ok
      split at ok <;> cases ok
      exact .enqueue h e name
  | write name bytes =>
      unfold peerWrite
      split
      · exact .refl h
      · exact .writeLine h _ bytes
  | read name =>
      unfold peerRead
      split
      · exact .refl h
      · exact .drainLine h _
  | close name =>
      unfold peerClose
      split
      · exact .refl h
      · exact (Still.drainLine h _).trans (.of_endpoints rfl rfl le_rfl rfl)

end TraceGate.Host
