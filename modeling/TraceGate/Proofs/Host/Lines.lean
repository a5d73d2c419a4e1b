import TraceGate.Host.Peer
import TraceGate.Reactor.Receiver

namespace TraceGate

namespace Host

variable {h : Host} {e : Endpoint} {n : Nat} {w : Line}

theorem line?_updateLine (h : Host) (n : Nat) (f : Line → Line) (m : Nat) :
    (h.updateLine n f).line? m = if m = n then (h.line? m).map f else h.line? m := by
  unfold line? updateLine
  induction h.lines with
  | nil => split <;> rfl
  | cons p lines ih =>
      obtain ⟨k, w⟩ := p
      rw [List.map_cons]
      by_cases own : k = n
      · subst own
        by_cases here : m = k
        · subst here
          simp
        · have differ : (m == k) = false := by simpa using here
          simpa [List.lookup_cons, differ, here] using ih
      · rw [if_neg own, List.lookup_cons, List.lookup_cons, ih]
        by_cases here : m = k
        · subst here
          simp [own]
        · have differ : (m == k) = false := by simpa using here
          simp [differ]

theorem line?_updateLine_self (line : h.line? n = some w) (f : Line → Line) :
    (h.updateLine n f).line? n = some (f w) := by
  rw [line?_updateLine, if_pos rfl, line]
  rfl

theorem line?_updateLine_of_ne {m : Nat} (other : m ≠ n) (f : Line → Line) :
    (h.updateLine n f).line? m = h.line? m := by
  rw [line?_updateLine, if_neg other]

@[simp] theorem updateLine_updateLine (h : Host) (n : Nat) (f g : Line → Line) :
    (h.updateLine n f).updateLine n g = h.updateLine n (g ∘ f) := by
  simp only [updateLine, List.map_map]
  congr 1
  refine List.map_congr_left fun p _ => ?_
  by_cases own : p.1 = n <;> simp [own]

def outbound? (h : Host) (n : Nat) : Option Bytes := (h.line? n).map (·.outbound)

theorem outbound?_updateLine (h : Host) (n : Nat) {f : Line → Line} (same : ∀ w, (f w).outbound = w.outbound) (m : Nat) :
    (h.updateLine n f).outbound? m = h.outbound? m := by
  have same : (·.outbound) ∘ f = (·.outbound) := funext same
  rw [outbound?, line?_updateLine, outbound?]
  split
  · rw [Option.map_map, same]
  · rfl

theorem outbound?_closeHome (h : Host) (n m : Nat) : (h.closeHome n).outbound? m = h.outbound? m := by
  refine outbound?_updateLine h n (fun w => ?_) m
  rfl

theorem outbound?_close (h : Host) (e : Endpoint) (n : Nat) : (h.close e).outbound? n = h.outbound? n := by
  have fold : ∀ (pending : List Nat) (k : Host), (pending.foldl closeHome k).outbound? n = k.outbound? n := by
    intro pending
    induction pending with
    | nil => exact fun k => rfl
    | cons m pending ih => exact fun k => (ih (k.closeHome m)).trans (outbound?_closeHome k m n)
  unfold close
  dsimp only
  split
  · exact outbound?_closeHome _ _ n
  · exact fold _ _
  · rfl

theorem attempt_leaves {α : Type} {P : Host → Prop} {course : Host → Except SystemError α × Host}
    {partly : Nat → Host → Host} (within : ∀ faults, P (course { h with faults }).2)
    (failed : ∀ taken faults, P (partly taken { h with faults })) : P (h.attempt course partly).2 := by
  unfold attempt
  split
  · exact within h.faults
  · exact within _
  · exact failed _ _

theorem attempt_cases {α : Type} (h : Host) (course : Host → Except SystemError α × Host) (partly : Nat → Host → Host) :
    ∃ faults, h.attempt course partly = course { h with faults } ∨
      ∃ error taken, h.attempt course partly = (.error error, partly taken { h with faults }) := by
  unfold attempt
  split
  · exact ⟨h.faults, Or.inl rfl⟩
  · exact ⟨_, Or.inl rfl⟩
  · exact ⟨_, Or.inr ⟨_, _, rfl⟩⟩

def fault? (h : Host) : Option Fault := h.faults.head?.join

def later (h : Host) : Host := { h with faults := h.faults.tail }

variable {α : Type} {course : Host → Except SystemError α × Host} {partly : Nat → Host → Host} {fault : Fault}

theorem attempt_of_none (clear : h.fault? = none) : h.attempt course partly = course h.later := by
  unfold fault? at clear
  unfold attempt later
  rcases faults : h.faults with _ | ⟨_ | fault, rest⟩
  · change course h = _
    rw [List.tail_nil, ← faults]
  · rfl
  · rw [faults] at clear
    cases clear

theorem attempt_of_fault (met : h.fault? = some fault) :
    h.attempt course partly = (.error fault.error, partly fault.taken h.later) := by
  unfold fault? at met
  unfold attempt later
  rcases faults : h.faults with _ | ⟨_ | fault', rest⟩ <;> rw [faults] at met <;> cases met
  rfl

theorem read_cases (stream : h.content? e = some (.stream n)) (line : h.line? n = some w) (still : w.peerOpen = true) :
    (h.fault? = none ∧ w.inbound ≠ []) ∧ h.read e = (.ok (w.inbound.take readLimit),
        h.later.updateLine n ({ · with inbound := w.inbound.drop readLimit })) ∨
      (h.fault? = none ∧ w.inbound = []) ∧ h.read e = (.error .wouldBlock, h.later) ∨
      ∃ fault, h.fault? = some fault ∧ h.read e = (.error fault.error, h.later) := by
  unfold read
  rw [stream]
  dsimp only
  cases met : h.fault? with
  | some fault => exact Or.inr (Or.inr ⟨fault, rfl, attempt_of_fault met⟩)
  | none =>
      rw [attempt_of_none met, show h.later.line? n = some w from line]
      by_cases empty : w.inbound = []
      · exact Or.inr (Or.inl ⟨⟨rfl, empty⟩, by simp [empty, still]⟩)
      · exact Or.inl ⟨⟨rfl, empty⟩, by simp [empty]⟩

theorem part_prefix (taken : Nat) (bytes : Bytes) : part taken bytes <+: bytes := List.take_prefix _ _

theorem part_length_lt {bytes : Bytes} (filled : bytes ≠ []) (taken : Nat) : (part taken bytes).length < bytes.length := by
  have := List.length_pos_iff.2 filled
  rw [part, List.length_take]
  omega

theorem sendLine_charge (h : Host) (n charge : Nat) (bytes : Bytes) :
    (h.updateLine n ({ · with charge })).sendLine n bytes =
      h.updateLine n fun v => { v with outbound := v.outbound ++ bytes, charge } :=
  updateLine_updateLine h n ({ · with charge }) fun v => { v with outbound := v.outbound ++ bytes }

/-- How much is taken of the bytes that are written. -/
def Took (bytes : Bytes) (result : Except SystemError Unit) (taken : Bytes) : Prop :=
  result = .ok () ∧ taken = bytes ∨ (∃ error, result = .error error) ∧ taken <+: bytes ∧ taken.length < bytes.length

theorem write_cases {bytes : Bytes} (stream : h.content? e = some (.stream n)) (line : h.line? n = some w)
    (still : w.peerOpen = true) (filled : bytes ≠ []) :
    (h.fault? = none ∧ bytes.length ≤ (h.uptake e.kind w.charge bytes.length).1) ∧ h.write e bytes = (.ok (),
        h.later.updateLine n fun v =>
          { v with outbound := v.outbound ++ bytes, charge := (h.uptake e.kind w.charge bytes.length).2 }) ∨
      ¬(h.fault? = none ∧ bytes.length ≤ (h.uptake e.kind w.charge bytes.length).1) ∧
        ∃ (error : SystemError) (taken : Bytes) (charge : Line → Nat), taken <+: bytes ∧ taken.length < bytes.length ∧
          h.write e bytes = (.error error,
            h.later.updateLine n fun v => { v with outbound := v.outbound ++ taken, charge := charge v }) := by
  unfold write
  rw [stream]
  dsimp only
  rw [if_neg (by simpa using filled)]
  cases met : h.fault? with
  | some fault =>
      rw [attempt_of_fault met]
      exact Or.inr ⟨by simp, fault.error, _, (·.charge), part_prefix _ _, part_length_lt filled _, rfl⟩
  | none =>
      rw [attempt_of_none met, send, show h.later.line? n = some w from line]
      dsimp only
      rw [if_pos still]
      split
      · rename_i fits
        exact Or.inl ⟨⟨rfl, fits⟩, congrArg (Prod.mk _) (sendLine_charge _ n _ _)⟩
      · rename_i long
        exact Or.inr ⟨fun both => long both.2, _, _, fun _ => _, part_prefix _ _, part_length_lt filled _,
          congrArg (Prod.mk _) (sendLine_charge _ n _ _)⟩

theorem isFull_line (full : h.isFull n = true) (line : h.line? n = some w) : w.inbound ≠ [] := by
  unfold isFull at full
  rw [line] at full
  cases room : h.lineRoom with
  | none => simp [room] at full
  | some k =>
      rw [room] at full
      have above : k < w.inbound.length := by simpa using (Bool.and_eq_true_iff.1 full).2
      exact List.ne_nil_of_length_pos (by omega)

theorem writeLine_eq {bytes : Bytes} (line : h.line? n = some w) (still : w.homeOpen = true) (filled : bytes ≠ []) :
    h.writeLine n bytes = (true, h.updateLine n ({ · with inbound := w.inbound ++ bytes })) := by
  unfold writeLine
  rw [line]
  simp [still, filled]

end Host

namespace Receiver

variable {r : Receiver} {h : Host} {e : Endpoint} {n : Nat} {w : Host.Line}

theorem fill_cases (held : r.endpoint = some e) (stream : h.content? e = some (.stream n))
    (line : h.line? n = some w) (still : w.peerOpen = true) :
    (h.fault? = none ∧ w.inbound ≠ []) ∧ r.fill h = (.ok (.data (w.inbound.take Host.readLimit).length),
        { r with buffer := r.buffer ++ w.inbound.take Host.readLimit },
        h.later.updateLine n ({ · with inbound := w.inbound.drop Host.readLimit })) ∨
      (∃ fault, h.fault? = some fault ∧ fault.error ≠ .wouldBlock ∧ r.fill h = (.error fault.error, r, h.later)) ∨
      ((∃ fault, h.fault? = some fault ∧ fault.error = .wouldBlock) ∨ h.fault? = none ∧ w.inbound = []) ∧
        r.fill h = (.ok .wouldBlock, r, h.later) := by
  unfold fill
  rw [held]
  dsimp only
  obtain ⟨⟨clear, filled⟩, read⟩ | ⟨idle, read⟩ | ⟨fault, met, read⟩ := Host.read_cases stream line still
  · refine Or.inl ⟨⟨clear, filled⟩, ?_⟩
    rw [read]
    obtain ⟨b, inbound, eq⟩ := List.exists_cons_of_ne_nil filled
    rw [eq]
    rfl
  · exact Or.inr (Or.inr ⟨Or.inr idle, by rw [read]⟩)
  · rw [read]
    by_cases blocked : fault.error = .wouldBlock
    · exact Or.inr (Or.inr ⟨Or.inl ⟨fault, met, blocked⟩, by rw [blocked]⟩)
    · refine Or.inr (Or.inl ⟨fault, met, blocked, ?_⟩)
      split <;> simp_all

end Receiver

end TraceGate
