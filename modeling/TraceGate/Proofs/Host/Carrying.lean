import TraceGate.Proofs.Host.Lines
import TraceGate.Proofs.Host.Ownership

namespace TraceGate.Host

/-- A line, what the coming attempts of the host meet, and how much its lines take. -/
structure Wire where
  line : Line
  faults : List (Option Fault)
  uptake : EndpointKind → Nat → Nat → Nat × Nat

namespace Wire

def fault? (w : Wire) : Option Fault := w.faults.head?.join

def Gives (w : Wire) : Prop := w.fault? = none ∧ w.line.inbound ≠ []

def Fails (w : Wire) : Prop := ∃ fault, w.fault? = some fault ∧ fault.error ≠ .wouldBlock

def Takes (w : Wire) (kind : EndpointKind) (bytes : Bytes) : Prop :=
  w.fault? = none ∧ bytes.length ≤ (w.uptake kind w.line.charge bytes.length).1

def later (w : Wire) : Wire := { w with faults := w.faults.tail }

def read (w : Wire) : Wire :=
  { w with line := { w.line with inbound := w.line.inbound.drop readLimit }, faults := w.faults.tail }

def part (taken : Bytes) (charge : Nat) (w : Wire) : Wire :=
  { w with line := { w.line with outbound := w.line.outbound ++ taken, charge }, faults := w.faults.tail }

def send (kind : EndpointKind) (w : Wire) (bytes : Bytes) : Wire :=
  w.part bytes (w.uptake kind w.line.charge bytes.length).2

def sendEach (kind : EndpointKind) (w : Wire) (pieces : List Bytes) : Wire := pieces.foldl (send kind) w

structure After (w w' : Wire) : Prop where
  faults : w'.faults <:+ w.faults
  uptake : w'.uptake = w.uptake

theorem After.trans {w w' w'' : Wire} (first : w.After w') (second : w'.After w'') : w.After w'' :=
  ⟨second.faults.trans first.faults, second.uptake.trans first.uptake⟩

theorem after_later (w : Wire) : w.After w.later := ⟨List.tail_suffix _, rfl⟩

theorem after_read (w : Wire) : w.After w.read := ⟨List.tail_suffix _, rfl⟩

theorem after_sendEach (kind : EndpointKind) (w : Wire) (pieces : List Bytes) : w.After (w.sendEach kind pieces) := by
  induction pieces generalizing w with
  | nil => exact ⟨List.suffix_refl _, rfl⟩
  | cons piece pieces ih =>
      have sent : w.After (w.send kind piece) := ⟨List.tail_suffix _, rfl⟩
      exact sent.trans (ih _)

structure Roomy (w : Wire) : Prop where
  clear : w.faults = []
  takes : ∀ kind charge k, k ≤ (w.uptake kind charge k).1

theorem Roomy.after {w w' : Wire} (roomy : w.Roomy) (after : w.After w') : w'.Roomy :=
  ⟨List.suffix_nil.1 (roomy.clear ▸ after.faults), after.uptake ▸ roomy.takes⟩

theorem Roomy.fault? {w : Wire} (roomy : w.Roomy) : w.fault? = none := by
  rw [Wire.fault?, roomy.clear]
  rfl

theorem line_sendEach (kind : EndpointKind) (w : Wire) (pieces : List Bytes) : ∃ charge,
    (w.sendEach kind pieces).line = { w.line with outbound := w.line.outbound ++ pieces.flatten, charge } := by
  induction pieces generalizing w with
  | nil => exact ⟨w.line.charge, by rw [List.flatten_nil, List.append_nil]; rfl⟩
  | cons piece pieces ih =>
      obtain ⟨charge, same⟩ := ih (w.send kind piece)
      refine ⟨charge, same.trans ?_⟩
      simp only [send, part, List.flatten_cons, List.append_assoc]

end Wire

variable {h : Host} {e : Endpoint} {n : Nat} {w : Wire}

def Content.Uses (n : Nat) : Content → Prop
  | .stream m => m = n
  | .listener _ pending => n ∈ pending
  | _ => False

instance (n : Nat) : DecidablePred (Content.Uses n)
  | .stream m => inferInstanceAs (Decidable (m = n))
  | .listener _ pending => inferInstanceAs (Decidable (n ∈ pending))
  | .timer => isFalse id
  | .file _ _ => isFalse id

def Line.bare (w : Line) : Line := { w with inbound := [], outbound := [], charge := 0 }

def blank (h : Host) (n : Nat) : Host := { h.updateLine n Line.bare with faults := [] }

theorem updateLine_comm {m : Nat} {f g : Line → Line} (comm : ∀ w, f (g w) = g (f w)) :
    (h.updateLine n f).updateLine m g = (h.updateLine m g).updateLine n f := by
  have lists (p : Nat × Line) : (fun p : Nat × Line => if p.1 = m then (m, g p.2) else p)
      (if p.1 = n then (n, f p.2) else p) =
        (fun p : Nat × Line => if p.1 = n then (n, f p.2) else p) (if p.1 = m then (m, g p.2) else p) := by
    by_cases here : p.1 = n <;> by_cases there : p.1 = m <;> simp_all
  simp only [updateLine, List.map_map]
  congr 1
  exact List.map_congr_left fun p _ => lists p

theorem closeHome_blank (h : Host) (n m : Nat) : (h.blank n).closeHome m = (h.closeHome m).blank n := by
  have comm : (h.updateLine n Line.bare).closeHome m = (h.closeHome m).updateLine n Line.bare :=
    updateLine_comm fun _ => rfl
  exact congrArg (fun k : Host => { k with faults := [] }) comm

theorem close_blank (h : Host) (n : Nat) (e : Endpoint) : (h.blank n).close e = (h.close e).blank n := by
  have closed (k : Host) (pending : List Nat) :
      pending.foldl closeHome (k.blank n) = (pending.foldl closeHome k).blank n := by
    induction pending generalizing k with
    | nil => rfl
    | cons m pending ih => rw [List.foldl_cons, List.foldl_cons, closeHome_blank, ih]
  have same : (h.blank n).content? e = h.content? e := rfl
  unfold close
  rw [same]
  dsimp only
  split
  · exact closeHome_blank { h with endpoints := h.endpoints.filter (·.1 != e) } n _
  · exact closed { h with endpoints := h.endpoints.filter (·.1 != e) } _
  · rfl

theorem openEndpoint_blank (h : Host) (n : Nat) (kind : EndpointKind) (content : Content) :
    (h.blank n).openEndpoint kind content =
      ((h.openEndpoint kind content).1, (h.openEndpoint kind content).2.blank n) := by
  have same (fd tries : Nat) : (h.blank n).freeFrom fd tries = h.freeFrom fd tries := by
    induction tries generalizing fd with
    | zero => rfl
    | succ tries ih =>
        rw [freeFrom, freeFrom, ih]
        rfl
  simp only [openEndpoint, nextDescriptor]
  rw [same]
  rfl

theorem attemptListen_blank {α : Type} {course : Host → Except SystemError α × Host}
    (blind : ∀ k : Host, course (k.blank n) = ((course k).1, (course k).2.blank n)) :
    (h.blank n).attemptListen course = ((h.attemptListen course).1, (h.attemptListen course).2.blank n) := by
  have same : (h.blank n).listenFaults = h.listenFaults := rfl
  unfold attemptListen
  rw [same]
  split
  · exact blind h
  · rename_i rest _
    exact blind { h with listenFaults := rest }
  · rfl

theorem canBind_blank (h : Host) (n : Nat) (address : Net.Address) : (h.blank n).canBind address = h.canBind address := by
  cases address <;> rfl

theorem listenNetwork_blank (h : Host) (n : Nat) (address : Net.Address) : (h.blank n).listenNetwork address =
    ((h.listenNetwork address).1, (h.listenNetwork address).2.blank n) := by
  have counted (outcome : Except SystemError Endpoint × Host) : countRefusal (outcome.1, outcome.2.blank n) =
      ((countRefusal outcome).1, (countRefusal outcome).2.blank n) := by
    rcases outcome with ⟨_ | _, _⟩ <;> rfl
  unfold listenNetwork
  rw [attemptListen_blank fun k => ?_, counted]
  rw [canBind_blank, openEndpoint_blank]
  split <;> rfl

structure Carries (e : Endpoint) (n : Nat) (w : Wire) (h : Host) : Prop where
  stream : h.content? e = some (.stream n)
  line : h.line? n = some w.line
  faults : h.faults = w.faults
  uptake : h.uptake = w.uptake
  sole : ∀ p ∈ h.endpoints, p.1 = e ∨ ¬p.2.Uses n
  below : e.id < h.next

def wire (h : Host) (line : Line) : Wire := ⟨line, h.faults, h.uptake⟩

theorem carries_wire {line : Line} (stream : h.content? e = some (.stream n)) (known : h.line? n = some line)
    (sole : ∀ p ∈ h.endpoints, p.1 = e ∨ ¬p.2.Uses n) (below : e.id < h.next) : h.Carries e n (h.wire line) :=
  ⟨stream, known, rfl, rfl, sole, below⟩

theorem blank_updateLine {f : Line → Line} (under : ∀ w : Line, (f w).bare = w.bare) (h : Host) (n : Nat)
    (faults : List (Option Fault)) : (({ h with faults } : Host).updateLine n f).blank n = h.blank n := by
  have lines : ((h.lines.map fun p => if p.1 = n then (n, f p.2) else p).map fun p =>
      if p.1 = n then (n, p.2.bare) else p) = h.lines.map fun p => if p.1 = n then (n, p.2.bare) else p := by
    rw [List.map_map]
    refine List.map_congr_left fun p _ => ?_
    by_cases own : p.1 = n
    · simp [own, under]
    · simp [own]
  exact congrArg (fun lines => ({ h with lines, faults := [] } : Host)) lines

theorem Carries.setLine (carries : h.Carries e n w) {f : Line → Line} {line : Line} (same : f w.line = line)
    (faults : List (Option Fault)) : (({ h with faults } : Host).updateLine n f).Carries e n { w with line, faults } where
  stream := carries.stream
  line := by
    have known : ({ h with faults } : Host).line? n = some w.line := carries.line
    rw [line?_updateLine_self known, same]
  faults := rfl
  uptake := carries.uptake
  sole := carries.sole
  below := carries.below

theorem Carries.fill {r : Receiver} (carries : h.Carries e n w) (held : r.endpoint = some e)
    (still : w.line.peerOpen = true) :
    w.Gives ∧ (∃ h' : Host, h'.Carries e n w.read ∧ h'.blank n = h.blank n ∧
      r.fill h = (.ok (.data (w.line.inbound.take readLimit).length),
        { r with buffer := r.buffer ++ w.line.inbound.take readLimit }, h')) ∨
    w.Fails ∧ (∃ (error : SystemError) (h' : Host), h'.Carries e n w.later ∧ h'.blank n = h.blank n ∧
      r.fill h = (.error error, r, h')) ∨
    (¬w.Gives ∧ ¬w.Fails) ∧ ∃ h' : Host, h'.Carries e n w.later ∧ h'.blank n = h.blank n ∧
      r.fill h = (.ok .wouldBlock, r, h') := by
  have fault : h.fault? = w.fault? := by rw [Host.fault?, Wire.fault?, carries.faults]
  have later : h.later.Carries e n w.later :=
    { carries with faults := congrArg List.tail carries.faults }
  rcases Receiver.fill_cases held carries.stream carries.line still with ⟨gives, fill⟩ | ⟨fault', met, fails, fill⟩ | ⟨idle, fill⟩
  · rw [fault] at gives
    have tail : h.later = { h with faults := w.faults.tail } := by rw [Host.later, carries.faults]
    rw [tail] at fill
    let f : Line → Line := ({ · with inbound := w.line.inbound.drop readLimit })
    exact Or.inl ⟨gives, _, carries.setLine (f := f) rfl _, blank_updateLine (f := f) (fun _ => rfl) h n _, fill⟩
  · exact Or.inr (Or.inl ⟨⟨fault', fault ▸ met, fails⟩, _, _, later, rfl, fill⟩)
  · rw [fault] at idle
    refine Or.inr (Or.inr ⟨⟨fun gives => ?_, fun ⟨fault', met, fails⟩ => ?_⟩, _, later, rfl, fill⟩)
    · rcases idle with ⟨fault', met, -⟩ | ⟨-, empty⟩
      · cases gives.1.symm.trans met
      · exact gives.2 empty
    · rcases idle with ⟨fault'', met', blocked⟩ | ⟨clear, -⟩
      · cases met.symm.trans met'
        exact fails blocked
      · cases clear.symm.trans met

theorem Carries.write {bytes : Bytes} (carries : h.Carries e n w) (still : w.line.peerOpen = true) (filled : bytes ≠ []) :
    w.Takes e.kind bytes ∧ (∃ h' : Host, h'.Carries e n (w.send e.kind bytes) ∧ h'.blank n = h.blank n ∧
      h.write e bytes = (.ok (), h')) ∨
    ¬w.Takes e.kind bytes ∧ ∃ (error : SystemError) (taken : Bytes) (charge : Nat) (h' : Host), taken <+: bytes ∧
      taken.length < bytes.length ∧ h'.Carries e n (w.part taken charge) ∧ h'.blank n = h.blank n ∧
      h.write e bytes = (.error error, h') := by
  have fault : h.fault? = w.fault? := by rw [Host.fault?, Wire.fault?, carries.faults]
  have tail : h.later = { h with faults := w.faults.tail } := by rw [Host.later, carries.faults]
  have outcome := write_cases carries.stream carries.line still filled
  rw [fault, carries.uptake, tail] at outcome
  rcases outcome with ⟨takes, write⟩ | ⟨refuses, error, taken, charge, first, short, write⟩
  · let f : Line → Line := fun v =>
      { v with outbound := v.outbound ++ bytes, charge := (w.uptake e.kind w.line.charge bytes.length).2 }
    exact Or.inl ⟨takes, _, carries.setLine (f := f) rfl _, blank_updateLine (f := f) (fun _ => rfl) h n _, write⟩
  · let f : Line → Line := fun v => { v with outbound := v.outbound ++ taken, charge := charge v }
    exact Or.inr ⟨refuses, error, taken, charge w.line, _, first, short, carries.setLine (f := f) rfl _,
      blank_updateLine (f := f) (fun _ => rfl) h n _, write⟩

theorem lookup_filter_ne {e' : Endpoint} (other : e' ≠ e) (l : List (Endpoint × Content)) :
    (l.filter (·.1 != e')).lookup e = l.lookup e := by
  induction l with
  | nil => rfl
  | cons p l ih =>
      by_cases here : p.1 = e'
      · have differ : (e == p.1) = false := by simp [here, other.symm]
        rw [List.filter_cons_of_neg (by simp [here]), ih, List.lookup_cons, differ]
      · rw [List.filter_cons_of_pos (by simpa using here), List.lookup_cons, List.lookup_cons, ih]

theorem mem_of_content? {content : Content} (known : h.content? e = some content) : (e, content) ∈ h.endpoints := by
  obtain ⟨before, after, split, -⟩ := List.lookup_eq_some_iff.1 known
  rw [split]
  exact List.mem_append_right _ List.mem_cons_self

theorem Carries.closeHome (carries : h.Carries e n w) {m : Nat} (other : m ≠ n) : (h.closeHome m).Carries e n w :=
  { carries with line := (line?_updateLine_of_ne other.symm _).trans carries.line }

theorem Carries.close (carries : h.Carries e n w) {e' : Endpoint} (other : e' ≠ e) : (h.close e').Carries e n w := by
  have rest : ({ h with endpoints := h.endpoints.filter (·.1 != e') } : Host).Carries e n w :=
    { carries with
      stream := (lookup_filter_ne other _).trans carries.stream
      sole := fun p mem => carries.sole p (List.mem_of_mem_filter mem) }
  have apart {content : Content} (known : h.content? e' = some content) : ¬content.Uses n :=
    (carries.sole _ (mem_of_content? known)).resolve_left other
  unfold Host.close
  dsimp only
  split
  · rename_i known
    exact rest.closeHome (apart known)
  · rename_i pending known
    have others : ∀ m ∈ pending, m ≠ n := fun m mem same => apart known (same ▸ mem)
    clear known
    generalize ({ h with endpoints := h.endpoints.filter (·.1 != e') } : Host) = k at rest
    induction pending generalizing k with
    | nil => exact rest
    | cons m pending ih =>
        exact ih (fun m mem => others m (List.mem_cons_of_mem _ mem)) _ (rest.closeHome (others m List.mem_cons_self))
  · exact rest

theorem Carries.openEndpoint (carries : h.Carries e n w) (kind : EndpointKind) (content : Content)
    (apart : ¬content.Uses n) :
    (h.openEndpoint kind content).2.Carries e n w ∧ (h.openEndpoint kind content).1 ≠ e := by
  have other : (h.openEndpoint kind content).1 ≠ e := fun same => by
    have number : (h.openEndpoint kind content).1.id = h.next := rfl
    rw [same] at number
    exact absurd carries.below (by omega)
  refine ⟨⟨?_, carries.line, carries.faults, carries.uptake, fun p mem => ?_,
    carries.below.trans (Nat.lt_succ_self _)⟩, other⟩
  · have old : h.endpoints.lookup e = some (.stream n) := carries.stream
    change (h.endpoints ++ [((h.openEndpoint kind content).1, content)]).lookup e = _
    rw [List.lookup_append, old]
    rfl
  · rcases List.mem_append.1 mem with old | new
    · exact carries.sole p old
    · rw [List.mem_singleton.1 new]
      exact Or.inr apart

theorem Carries.listenNetwork (carries : h.Carries e n w) (address : Net.Address) :
    (h.listenNetwork address).2.Carries e n w ∧ ∀ e', (h.listenNetwork address).1 = .ok e' → e' ≠ e := by
  have left (listenFaults : List (Option SystemError)) (refusals : Nat) :
      ({ h with listenFaults, refusals } : Host).Carries e n w := { carries with }
  obtain ⟨listenFaults, ⟨e', k, opened, ok⟩ | ⟨error, failed⟩⟩ := listenNetwork_cases h address
  · obtain ⟨carries, other⟩ := (left listenFaults h.refusals).openEndpoint .tcpListener (.listener (some address) [])
      List.not_mem_nil
    rw [opened] at carries other
    rw [ok]
    exact ⟨carries, fun e'' same => Except.ok.inj same ▸ other⟩
  · rw [failed]
    exact ⟨left _ _, by rintro _ ⟨⟩⟩

end TraceGate.Host
