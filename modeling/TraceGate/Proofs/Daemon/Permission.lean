import TraceGate.Proofs.Daemon.Footprint
import TraceGate.Proofs.Daemon.Frames

namespace TraceGate.Site

open TraceGate.Filter

structure Grants (s : Site) (r : Request) (level : Nat) : Prop where
  asks : r.service.toNat = Service.setFilterLevel
  allowed : r.service.toNat ∈ s.state.filter.segment.controls
  payload : ∃ a b c d, r.payload = [a, b, c, d] ∧
    level = a.toNat + 2 ^ 8 * b.toNat + 2 ^ 16 * c.toNat + 2 ^ 24 * d.toNat
  inRange : level ≤ maxLevel

def applies (r : Request) (s : Site) : Bool :=
  (requestedLevel? r.payload).any fun level => (s.applyLevel level).1.isOk

def controlStatus (controls : ServiceSet) (id : Nat) (applied : Bool) : Status :=
  match controls.test id with
  | .error _ => .notSupported
  | .ok false => .permDenied
  | .ok true =>
    if id = Service.setFilterLevel then if applied then .ok else .error
    else if id = Service.getFilterStatus then .ok
    else .notSupported

def decisionStatus : Except FilterError Bool → Status
  | .ok true => .ok
  | .ok false => .permDenied
  | .error _ => .error

def denials (status : Status) : Nat := if status = .permDenied then 1 else 0

/-- What serving a request comes to. -/
structure Served (r : Request) (s : Site) (outcome : Response × Site) : Prop where
  service : outcome.1.service = r.service
  counted : outcome.2.state.stats = { s.state.stats with
    controlRequests := s.state.stats.controlRequests + 1
    deniedRequests := s.state.stats.deniedRequests + denials outcome.1.status }
  refused : (∀ level, ¬s.Grants r level) → outcome.2 = s.changeStats fun _ => outcome.2.state.stats
  granted : ∀ level, s.Grants r level →
    outcome.2 = (s.applyLevel level).2.changeStats fun _ => outcome.2.state.stats
  control : r.service.toNat < Service.injectionBase →
    outcome.1.status = controlStatus s.state.filter.segment.controls r.service.toNat (s.applies r)
  short : Service.injectionBase ≤ r.service.toNat → r.payload.length < 12 → outcome.1.status = .error
  injection : Service.injectionBase ≤ r.service.toNat → 12 ≤ r.payload.length →
    ∃ t, Target.decode r.payload = .ok t ∧ outcome.1.status =
      decisionStatus (s.state.filter.injectionAllowed t.app t.context t.node r.service.toNat)

variable {r : Request} {s s' : Site} {level : Nat}

theorem requestedLevel?_eq_some {payload : Bytes} : requestedLevel? payload = some level ↔
    ∃ a b c d, payload = [a, b, c, d] ∧ level = a.toNat + 2 ^ 8 * b.toNat + 2 ^ 16 * c.toNat + 2 ^ 24 * d.toNat := by
  unfold requestedLevel?
  constructor
  · intro read
    split at read
    · rename_i a b c d
      exact ⟨a, b, c, d, rfl, (Option.some.inj read).symm.trans (Frame.toNat_word a b c d)⟩
    · cases read
  · rintro ⟨a, b, c, d, rfl, rfl⟩
    exact congrArg some (Frame.toNat_word a b c d)

theorem changeLevel_high (filter : MessageFilter) (high : ¬level ≤ maxLevel) : ∃ e, filter.changeLevel level = .error e := by
  unfold MessageFilter.changeLevel
  cases checked : checkLevel level with
  | error e => exact ⟨e, rfl⟩
  | ok m => exact absurd (by have := checkLevel_eq_ok_iff.1 checked; omega) high

def Blind {α : Type} (f : Site → α × Site) : Prop :=
  ∀ (s : Site) (count : Stats → Stats), f (s.changeStats count) = ((f s).1, (f s).2.changeStats count)

theorem blind_openListener (address : Net.Address) : Blind (openListener address) := fun _ _ => rfl

theorem changeStats_react {α : Type} (s : Site) (count : Stats → Stats) (f : Reactor → Except EventError α × Reactor) :
    (s.changeStats count).react f = ((s.react f).1, (s.react f).2.changeStats count) := rfl

theorem changeStats_setFilter (s : Site) (count : Stats → Stats) (filter : MessageFilter) :
    (s.changeStats count).setFilter filter = (s.setFilter filter).changeStats count := rfl

theorem blind_ensureListener (address : Net.Address) : Blind (ensureListener address) := by
  intro s count
  have listeners : (s.changeStats count).state.listeners = s.state.listeners := rfl
  have reactor : (s.changeStats count).reactor = s.reactor := rfl
  unfold ensureListener
  rw [listeners, reactor, blind_openListener address s count]
  split
  · split
    · cases s.openListener address with
      | mk opened t => cases opened <;> rfl
    · rfl
  · cases s.openListener address with
    | mk opened t =>
        cases opened with
        | error e => rfl
        | ok e =>
            have filter : (t.changeStats count).state.filter = t.state.filter := rfl
            dsimp only
            rw [filter, changeStats_react]
            cases t.react (Reactor.register t.state.filter.allowed .clientConnect (.ofEndpoint e) Flags.input) with
            | mk registered u => cases registered <;> rfl

theorem blind_ensureEach (addresses : List Net.Address) : Blind (ensureEach addresses) := by
  induction addresses with
  | nil => exact fun _ _ => rfl
  | cons address addresses ih =>
      intro s count
      unfold ensureEach
      rw [blind_ensureListener address s count]
      cases s.ensureListener address with
      | mk ensured t =>
          cases ensured with
          | error e => rfl
          | ok _ => exact ih t count

theorem blind_ensureListeners : Blind ensureListeners := by
  intro s count
  have filter : (s.changeStats count).state.filter = s.state.filter := rfl
  unfold ensureListeners
  rw [filter]
  split
  · exact blind_ensureEach s.state.settings.listenAddresses s.forgetListeners count
  · rfl

theorem blind_applyLevel (level : Nat) : Blind (applyLevel level) := by
  intro s count
  have filter : (s.changeStats count).state.filter = s.state.filter := rfl
  unfold applyLevel
  rw [filter]
  cases s.state.filter.changeLevel level with
  | error e => rfl
  | ok outcome =>
      obtain ⟨change, moved⟩ := outcome
      dsimp only
      rw [changeStats_setFilter, blind_ensureListeners (s.setFilter moved) count]
      cases (s.setFilter moved).ensureListeners with
      | mk ensured t =>
          cases ensured with
          | error e => rfl
          | ok _ =>
              have filter : (t.changeStats count).state.filter = t.state.filter := rfl
              dsimp only
              rw [filter, changeStats_react]
              cases t.react (Reactor.reconcile t.state.filter.allowed .all) with
              | mk aligned u => cases aligned <;> rfl

theorem blind_serveControl (r : Request) : Blind (serveControl r) := by
  intro s count
  unfold serveControl
  dsimp only
  split
  · cases requestedLevel? r.payload with
    | none => rfl
    | some level =>
        dsimp only
        rw [blind_applyLevel level s count]
        cases s.applyLevel level with
        | mk applied t => cases applied <;> rfl
  · split <;> rfl

theorem blind_respond (r : Request) : Blind (respond r) := by
  intro s count
  have filter : (s.changeStats count).state.filter = s.state.filter := rfl
  unfold respond
  rw [filter, blind_serveControl r s count]
  split
  · rfl
  · split <;> rfl

theorem respond_service (r : Request) (s : Site) : (s.respond r).1.service = r.service := by
  unfold respond
  split
  · rfl
  · split
    · unfold serveControl
      dsimp only
      split
      · split
        · rfl
        · split <;> rfl
      · split <;> rfl
    · rfl
    · rfl

theorem respond_stats (r : Request) (s : Site) : (s.respond r).2.state.stats = s.state.stats := by
  rcases respond_level r s with same | ⟨level, -, moved⟩
  · rw [same]
  · rw [moved]
    rcases applyLevel_cases level s with ⟨e, -, refused⟩ | ⟨_, _, -, ⟨_, _, state⟩, -⟩
    · rw [refused]
    · rw [state]

theorem isInjection_iff {id : Nat} : Service.isInjection id ↔ Service.injectionBase ≤ id := decide_eq_true_iff

theorem not_isInjection (asks : r.service.toNat = Service.setFilterLevel) : ¬Service.isInjection r.service.toNat := by
  rw [asks]
  decide

theorem respond_granted (grants : s.Grants r level) : (s.respond r).2 = (s.applyLevel level).2 := by
  have asked := requestedLevel?_eq_some.2 grants.payload
  have tested : s.state.filter.controlAllowed r.service.toNat = .ok true := grants.allowed
  unfold respond
  rw [if_neg (not_isInjection grants.asks), tested]
  unfold serveControl
  dsimp only
  rw [if_pos grants.asks, asked]
  dsimp only
  split <;> rename_i applied <;> rw [applied]

theorem respond_refused (refused : ∀ level, ¬s.Grants r level) : (s.respond r).2 = s := by
  unfold respond
  split
  · rfl
  · split <;> rename_i tested
    · unfold serveControl
      dsimp only
      split
      · rename_i asks
        cases asked : requestedLevel? r.payload with
        | none => rfl
        | some level =>
            have high : ¬level ≤ maxLevel := fun inRange =>
              refused level ⟨asks, tested, requestedLevel?_eq_some.1 asked, inRange⟩
            obtain ⟨e, unmoved⟩ := changeLevel_high s.state.filter high
            have stays : s.applyLevel level = (.error (.filter e), s) := by
              unfold applyLevel
              rw [unmoved]
            dsimp only
            rw [stays]
      · split <;> rfl
    · rfl
    · rfl

theorem respond_control (below : r.service.toNat < Service.injectionBase) :
    (s.respond r).1.status = controlStatus s.state.filter.segment.controls r.service.toNat (s.applies r) := by
  have control : ¬Service.isInjection r.service.toNat := mt isInjection_iff.1 (Nat.not_le.2 below)
  unfold respond controlStatus MessageFilter.controlAllowed
  rw [if_neg control]
  split <;> rename_i tested
  · rw [tested]
    dsimp only
    unfold serveControl applies
    dsimp only
    split
    · cases requestedLevel? r.payload with
      | none => rfl
      | some level =>
          rw [Option.any_some]
          dsimp only
          cases s.applyLevel level with
          | mk applied t => cases applied <;> rfl
    · split <;> rfl
  · rw [tested]
  · rw [tested]

theorem respond_injection (above : Service.injectionBase ≤ r.service.toNat) :
    (s.respond r).1.status = injectionStatus s.state.filter r := by
  unfold respond
  rw [if_pos (isInjection_iff.2 above)]

theorem injectionStatus_short (filter : MessageFilter) (short : r.payload.length < Frame.targetLength) :
    injectionStatus filter r = .error := by
  unfold injectionStatus Target.decode
  rw [if_pos short]

theorem injectionStatus_decoded (filter : MessageFilter) (whole : Frame.targetLength ≤ r.payload.length) :
    ∃ t, Target.decode r.payload = .ok t ∧
      injectionStatus filter r = decisionStatus (filter.injectionAllowed t.app t.context t.node r.service.toNat) := by
  have decoded : ∃ t, Target.decode r.payload = .ok t := by
    unfold Target.decode
    rw [if_neg (Nat.not_lt.2 whole)]
    exact ⟨_, rfl⟩
  obtain ⟨t, decoded⟩ := decoded
  refine ⟨t, decoded, ?_⟩
  rw [injectionStatus, decoded]
  dsimp only
  cases filter.injectionAllowed t.app t.context t.node r.service.toNat with
  | error => rfl
  | ok permitted => cases permitted <;> rfl

def counted (t : Stats) (status : Status) : Stats :=
  { t with controlRequests := t.controlRequests + 1, deniedRequests := t.deniedRequests + denials status }

theorem serve_eq (r : Request) (s : Site) :
    s.serve r = ((s.respond r).1, (s.respond r).2.changeStats fun t => counted t (s.respond r).1.status) := by
  unfold serve
  dsimp only
  rw [blind_respond r s]
  dsimp only
  split <;> rename_i denied
  · unfold counted denials
    rw [if_pos denied]
    rfl
  · unfold counted denials
    rw [if_neg denied]
    rfl

/-- The stats aside, only a request with a grant leaves a trace. -/
theorem serve_served (r : Request) (s : Site) : Served r s (s.serve r) := by
  let count (t : Stats) : Stats := counted t (s.respond r).1.status
  have leaves {t : Site} (same : (s.respond r).2 = t) : (s.respond r).2.changeStats count =
      t.changeStats fun _ => ((s.respond r).2.changeStats count).state.stats := by
    rw [same]
    rfl
  rw [serve_eq]
  exact {
    service := respond_service r s
    counted := congrArg count (respond_stats r s)
    refused := fun refused => leaves (respond_refused refused)
    granted := fun level grants => leaves (respond_granted grants)
    control := respond_control
    short := fun above short => (respond_injection above).trans (injectionStatus_short _ short)
    injection := fun above long => by
      obtain ⟨t, decoded, decided⟩ := injectionStatus_decoded s.state.filter long
      exact ⟨t, decoded, (respond_injection above).trans decided⟩ }

end TraceGate.Site
