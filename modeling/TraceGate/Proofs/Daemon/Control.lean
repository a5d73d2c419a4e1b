import TraceGate.Proofs.Daemon.History
import TraceGate.Proofs.Daemon.Service
import TraceGate.Proofs.Reactor.Kindred

/-!
# The control listener

A configured filter allows the control listener at every level, so that no level touches it (`Site.Grounded.applyLevel`),
and no handler has it removed (`Handlers.Moves.heeds`). What is left is a turn that finds it failed (`Occasion.Severs`):
over a round the control listener stays the only one of its kind unless there is such a turn (`Site.Primary.round`).
-/

namespace TraceGate

open Connection Relation TraceGate.Filter

namespace Reactor

variable {loan : Option Loan} {r r' : Reactor}

theorem Step.foremost (step : Step loan r r') (coherent : r.Coherent loan) (foremost : r.Foremost) : r'.Foremost := by
  cases step with
  | operation operation => exact operation.foremost coherent foremost
  | grow grows => exact foremost

theorem Goes.keeps (goes : Goes loan r r') (coherent : r.Coherent loan) (foremost : r.Foremost) :
    r'.Coherent loan ∧ r'.Foremost := by
  have steps := goes coherent
  clear goes
  induction steps with
  | refl => exact ⟨coherent, foremost⟩
  | tail _ step ih => exact ⟨step.coherent ih.1, step.foremost ih.1 ih.2⟩

end Reactor

namespace Site

open Reactor

variable {loan : Option Loan} {s s' : Site}

def controls (s : Site) : List Connection := s.reactor.kindred .controlConnect

structure Grounded (loan : Option Loan) (s : Site) : Prop where
  coherent : s.reactor.Coherent loan
  foremost : s.reactor.Foremost
  configured : ∃ config level, MessageFilter.Stands config level s.state.filter
  awake : s.reactor.Awake .controlConnect

theorem Grounded.allowed (grounded : s.Grounded loan) : .controlConnect ∈ s.state.filter.allowed := by
  obtain ⟨config, level, stands⟩ := grounded.configured
  exact stands.standing (by decide)

structure Heeds (loan : Option Loan) (s s' : Site) : Prop where
  grounded : s'.Grounded loan
  controls : s'.controls = s.controls

theorem ensureListener_controls (coherent : s.reactor.Coherent loan) (awake : s.reactor.Awake .controlConnect)
    (allowed : .controlConnect ∈ s.state.filter.allowed) (address : Net.Address) :
    (s.ensureListener address).2.controls = s.controls := by
  unfold Site.ensureListener Site.openListener
  rcases s.reactor.host.listenNetwork address with ⟨outcome, host⟩
  cases outcome with
  | error e =>
      dsimp only [Except.mapError]
      split
      · split <;> rfl
      · rfl
  | ok e =>
      dsimp only [Except.mapError]
      split
      · rename_i id _ _
        split
        · rename_i vacant
          -- The number stands for a connection without a descriptor, and so for none that is active.
          obtain ⟨d, found, free⟩ := (Option.any_eq_true _ _).1 vacant
          have spared : Spared .controlConnect s.reactor id := .of_found found fun same => by
            have active := awake d (mem_kindred.2 ⟨connection?_mem found, same⟩)
            obtain ⟨fd, known⟩ := coherent.known found active
            rw [known] at free
            cases free
          exact kindred_assign (r := { s.reactor with host }) spared e
        · rfl
      · have joined := kindred_register (r := { s.reactor with host }) awake allowed (by decide : Kind.clientConnect ≠ .controlConnect)
          (.ofEndpoint e) Flags.input
        rw [react_eq]
        split <;> rename_i done <;> obtain ⟨-, rfl⟩ := Prod.mk.inj done <;> exact joined

theorem ensureEach_controls (addresses : List Net.Address) (coherent : s.reactor.Coherent loan)
    (awake : s.reactor.Awake .controlConnect) (allowed : .controlConnect ∈ s.state.filter.allowed) :
    (s.ensureEach addresses).2.controls = s.controls := by
  induction addresses generalizing s with
  | nil => rfl
  | cons address addresses ih =>
      have first := ensureListener_controls coherent awake allowed address
      have steps := ensureListener_goes address s coherent
      have state := (ensureListener_extends address s).state
      unfold Site.ensureEach
      split <;> rename_i eq <;> rw [eq] at first steps state
      · exact first
      · refine (ih (steps_coherent steps coherent) (awake.of_eq first) ?_).trans first
        rw [state]
        exact allowed

theorem ensureListeners_controls (coherent : s.reactor.Coherent loan) (awake : s.reactor.Awake .controlConnect)
    (allowed : .controlConnect ∈ s.state.filter.allowed) : s.ensureListeners.2.controls = s.controls := by
  unfold Site.ensureListeners
  split
  · exact ensureEach_controls _ (s := s.forgetListeners) coherent awake allowed
  · rfl

theorem Grounded.applyLevel_controls (grounded : s.Grounded loan) (level : Nat) :
    (s.applyLevel level).2.controls = s.controls := by
  obtain ⟨config, current, stands⟩ := grounded.configured
  unfold Site.applyLevel
  cases changed : s.state.filter.changeLevel level with
  | error e => rfl
  | ok outcome =>
      obtain ⟨change, filter⟩ := outcome
      have allowed : .controlConnect ∈ filter.allowed := (stands.changeLevel changed).standing (by decide)
      have ensured := ensureListeners_controls (s := s.setFilter filter) grounded.coherent grounded.awake allowed
      have state := (ensureListeners_extends (s.setFilter filter)).state
      dsimp only
      split <;> rename_i eq <;> rw [eq] at ensured state
      · exact ensured
      · rename_i t
        have still : .controlConnect ∈ t.state.filter.allowed := by
          rw [state]
          exact allowed
        have aligned := kindred_checkAll (grounded.awake.of_eq ensured) still (t.reactor.idsOf .all)
        rw [react_eq]
        split <;> rename_i done <;> obtain ⟨-, rfl⟩ := Prod.mk.inj done <;> exact aligned.trans ensured

theorem Grounded.applyLevel (grounded : s.Grounded loan) (level : Nat) : s.Heeds loan (s.applyLevel level).2 := by
  obtain ⟨coherent, foremost⟩ := (applyLevel_goes level s).keeps grounded.coherent grounded.foremost
  have controls := grounded.applyLevel_controls level
  refine ⟨⟨coherent, foremost, ?_, grounded.awake.of_eq controls⟩, controls⟩
  obtain ⟨config, current, stands⟩ := grounded.configured
  rcases applyLevel_cases level s with ⟨e, -, same⟩ | ⟨change, filter, changed, ⟨_, _, state⟩, -⟩
  · rw [same]
    exact ⟨config, current, stands⟩
  · rw [state]
    exact ⟨config, level, stands.changeLevel changed⟩

end Site

namespace Handlers

open Reactor Site

variable {kind : Kind} {id : Nat} {s t : Scene State}

theorem steps_foremost (steps : ReflTransGen (Scene.Step anyGift id) s t) (coherent : s.Coherent id)
    (foremost : s.reactor.Foremost) : t.reactor.Foremost := by
  induction steps with
  | refl => exact foremost
  | tail before step ih =>
      cases step with
      | operation operation => exact operation.foremost (Scene.steps_coherent before coherent) ih
      | outside elapses isOpen given => exact elapses.foremost ih

theorem Move.heeds (move : Move kind id s t) (apart : admitted? kind = none → ∀ c ∈ (siteOf s).controls, c.id ≠ id)
    (grounded : (siteOf s).Grounded (some (s.loan id))) : (siteOf t).controls = (siteOf s).controls ∧
      ∃ config level, MessageFilter.Stands config level t.state.filter := by
  cases move with
  | use same grows houses => exact ⟨rfl, grounded.configured⟩
  | note stats notices exit => exact ⟨rfl, grounded.configured⟩
  | @accept host e peer grows houses isOpen new other admits =>
      exact ⟨kindred_register (r := { s.reactor with host }) grounded.awake grounded.allowed
        (admitted?_standing admits).2 _ _, grounded.configured⟩
  | unregister peer =>
      exact ⟨Coherent.kindred_unregister grounded.coherent (.of_ne (apart peer)), grounded.configured⟩
  | forward bytes =>
      exact ⟨grounded.foremost.kindred_sendTo grounded.coherent (by decide) bytes, grounded.configured⟩
  | level n leads =>
      have heeds := grounded.applyLevel n
      exact ⟨heeds.controls, heeds.grounded.configured⟩

theorem Moves.heeds (moves : Moves kind id s t) (apart : admitted? kind = none → ∀ c ∈ (siteOf s).controls, c.id ≠ id)
    (grounded : (siteOf s).Grounded (some (s.loan id))) :
    (siteOf t).Grounded (some (t.loan id)) ∧ (siteOf t).controls = (siteOf s).controls := by
  induction moves with
  | refl => exact ⟨grounded, rfl⟩
  | tail _ move ih =>
      obtain ⟨before, same⟩ := ih
      obtain ⟨controls, configured⟩ := move.heeds (fun peer => same ▸ apart peer) before
      have steps := move.goes before.coherent
      exact ⟨⟨Scene.steps_coherent steps before.coherent, steps_foremost steps before.coherent before.foremost, configured,
        before.awake.of_eq controls⟩, controls.trans same⟩

theorem Move.endpoint (move : Move kind id s t) : t.receiver.endpoint = s.receiver.endpoint := by
  cases move with
  | use same grows houses => exact same
  | _ => rfl

theorem Moves.endpoint (moves : Moves kind id s t) : t.receiver.endpoint = s.receiver.endpoint := by
  induction moves with
  | refl => rfl
  | tail _ move ih => exact move.endpoint.trans ih

theorem acceptAll_fails (peer : Kind) (listener : Endpoint) (fuel : Nat) (s : Scene State) {message : String}
    (failed : ((acceptAll peer true listener fuel).run.run s).1 = .error message) :
    ((acceptAll peer true listener fuel).run.run s).2.state.exit = true := by
  induction fuel generalizing s with
  | zero => cases failed
  | succ fuel ih =>
      unfold acceptAll at failed ⊢
      rw [Turn.run_receiver] at failed ⊢
      dsimp only at failed ⊢
      generalize s.reactor.host.accept listener = outcome at failed ⊢
      obtain ⟨answer, host⟩ := outcome
      dsimp only at failed ⊢
      split at failed
      · cases failed
      · exact ih _ failed
      · rfl
      · rw [run_site] at failed ⊢
        exact ih _ failed

theorem control_fails {listener : Endpoint} (holds : s.receiver.endpoint = some listener) {message : String}
    (failed : ((ofKind .controlConnect id).run.run s).1 = .error message) :
    ((ofKind .controlConnect id).run.run s).2.state.exit = true := by
  obtain ⟨⟨_ | own, buffer⟩, reactor, state⟩ := s
  · cases holds
  · exact acceptAll_fails .controlMsg own _ _ failed

end Handlers

/-- The turn removes the control listener. -/
def Occasion.Severs (o : Occasion State) : Prop :=
  o.IsFailure ∧ ∃ c, o.sighting.target? o.reactor = some c ∧ c.kind = .controlConnect

namespace Site

open Reactor

variable {whole : Prop} {s : Site} {r : Reactor} {state : State}

/-- There is a control listener while nothing has removed it, and only one. -/
structure Primary (whole : Prop) (s : Site) : Prop where
  grounded : s.Grounded none
  here : whole → ∃ c e, s.controls = [c] ∧ c.endpoint? = some e ∧ e.kind = .unixListener
  gone : ¬whole → s.controls = []

theorem Primary.of_eq (primary : s.Primary whole) {t : Site} (grounded : t.Grounded none)
    (controls : t.controls = s.controls) : t.Primary whole :=
  ⟨grounded, fun holds => controls ▸ primary.here holds, fun lost => controls ▸ primary.gone lost⟩

theorem Primary.congr (primary : s.Primary whole) {whole' : Prop} (same : whole' ↔ whole) : s.Primary whole' :=
  propext same ▸ primary

theorem Grounded.apart (grounded : s.Grounded none) {c : Connection} (found : s.reactor.connection? c.id = some c)
    (other : c.kind ≠ .controlConnect) : ∀ d ∈ s.controls, d.id ≠ c.id := by
  intro d mem same
  obtain ⟨among, own⟩ := mem_kindred.1 mem
  have first := grounded.foremost.found among (grounded.awake d mem)
  rw [same, found] at first
  cases first
  exact other own

theorem Primary.lone (primary : s.Primary whole) {c : Connection} (mem : c ∈ s.controls) :
    s.controls = [c] ∧ ∃ e, c.endpoint? = some e ∧ e.kind = .unixListener := by
  by_cases holds : whole
  · obtain ⟨d, e, alone, endpoint, sort⟩ := primary.here holds
    rw [alone] at mem
    cases List.mem_singleton.1 mem
    exact ⟨alone, e, endpoint, sort⟩
  · rw [primary.gone holds] at mem
    cases mem

theorem Grounded.opening (grounded : Site.Grounded none ⟨state, r⟩) {c : Connection} {receiver : Receiver}
    (found : r.connection? c.id = some c) (held : c.receiver = some receiver) {controls : List Connection}
    (lent : (Handlers.siteOf (r.opening c.id receiver state)).controls = controls) (active : ∀ d ∈ controls, d.IsActive) :
    (Handlers.siteOf (r.opening c.id receiver state)).Grounded (some ((r.opening c.id receiver state).loan c.id)) where
  coherent := grounded.coherent.opening found held state
  foremost := grounded.foremost.update Connection.lend (fun _ => rfl) c.id
  configured := grounded.configured
  awake d mem := active d (lent ▸ mem)

theorem Primary.runHandler (primary : Site.Primary whole ⟨state, r⟩) {c : Connection} {receiver : Receiver}
    (found : r.connection? c.id = some c) (held : c.receiver = some receiver) :
    Site.Primary whole ⟨(r.runHandler (Handlers.ofKind c.kind) c.id receiver state).2.2,
      (r.runHandler (Handlers.ofKind c.kind) c.id receiver state).2.1⟩ := by
  have grounded := primary.grounded
  have moves := Handlers.does_ofKind c.kind c.id (r.opening c.id receiver state)
  rw [runHandler_snd]
  generalize ((Handlers.ofKind c.kind c.id).run.run (r.opening c.id receiver state)).2 = final at moves
  have endpoint : final.receiver.endpoint = receiver.endpoint := moves.endpoint
  by_cases own : c.kind = .controlConnect
  · -- The only control listener runs: it is lent out, nothing touches it, and it gets back what it had.
    have mem : c ∈ Site.controls ⟨state, r⟩ := mem_kindred.2 ⟨connection?_mem found, own⟩
    obtain ⟨alone, e, holds, sort⟩ := primary.lone mem
    have lent : (Handlers.siteOf (r.opening c.id receiver state)).controls = [c.lend] :=
      kindred_update_own (fun _ => rfl) alone found
    have active : c.lend.IsActive := grounded.awake c mem
    have opened := grounded.opening found held lent fun d mem => List.mem_singleton.1 mem ▸ active
    obtain ⟨after, same⟩ := moves.heeds (fun peer => by rw [own] at peer; cases peer) opened
    rw [lent] at same
    have here : c.lend ∈ (Handlers.siteOf final).controls := same ▸ List.mem_singleton_self _
    have first := after.foremost.found (mem_kindred.1 here).1 active
    have fd : final.receiver.fd? = c.lend.fd := by
      rw [Receiver.fd?, endpoint]
      exact ((grounded.coherent.books.settled c (connection?_mem found)).fd receiver held).symm
    have back : Site.controls ⟨final.state, final.reactor.restore c.id final.receiver⟩ = [c.lend.hold final.receiver] :=
      kindred_restore_own (c := c.lend) same first fd
    refine ⟨⟨Coherent.restore after.coherent, after.foremost.restore _ _, after.configured, ?_⟩, fun _ => ?_, fun lost => ?_⟩
    · intro d mem
      cases List.mem_singleton.1 (back ▸ mem : d ∈ [c.lend.hold final.receiver])
      exact active
    · refine ⟨_, e, back, ?_, sort⟩
      rw [← holds, endpoint?_of_receiver held]
      exact endpoint
    · rw [primary.gone lost] at mem
      cases mem
  · -- Another connection's handler runs, whose number is not that of the control listener.
    have apart := grounded.apart found own
    have lent : (Handlers.siteOf (r.opening c.id receiver state)).controls = Site.controls ⟨state, r⟩ :=
      kindred_update (fun _ => rfl) (.of_found found own)
    have opened := grounded.opening found held lent grounded.awake
    obtain ⟨after, same⟩ := moves.heeds (fun _ d mem => apart d (lent ▸ mem)) opened
    have spared : Spared .controlConnect final.reactor c.id := .of_ne fun d mem => apart d (lent ▸ same ▸ mem)
    have back : Site.controls ⟨final.state, final.reactor.restore c.id final.receiver⟩ = Site.controls ⟨state, r⟩ :=
      (kindred_restore spared final.receiver).trans (same.trans lent)
    exact primary.of_eq ⟨Coherent.restore after.coherent, after.foremost.restore _ _, after.configured,
      grounded.awake.of_eq back⟩ back

theorem Primary.turn {o : Occasion State} (primary : Site.Primary whole ⟨o.state, o.reactor⟩) :
    Site.Primary (whole ∧ ¬o.Severs) ⟨(o.outcome Handlers.ofKind).2.2, (o.outcome Handlers.ofKind).2.1⟩ := by
  have grounded := primary.grounded
  cases Coherent.course grounded.coherent with
  | vain target silent outcome =>
      rw [outcome]
      refine primary.congr (and_iff_left ?_)
      rintro ⟨-, c, found, -⟩
      cases target.symm.trans found
  | removal c target failure silent outcome =>
      rw [outcome]
      have found := (Sighting.target?_eq_some target).2.1
      obtain ⟨coherent, -⟩ := grounded.coherent.unregister c.id
      have foremost := grounded.coherent.unregister_foremost grounded.foremost c.id
      by_cases own : c.kind = .controlConnect
      · have mem : c ∈ Site.controls ⟨o.state, o.reactor⟩ := mem_kindred.2 ⟨connection?_mem found, own⟩
        have none : Site.controls ⟨o.state, (o.reactor.unregister c.id).2⟩ = [] :=
          grounded.coherent.kindred_unregister_own (primary.lone mem).1 found
        refine ⟨⟨coherent, foremost, grounded.configured, ?_⟩, fun holds => ?_, fun _ => none⟩
        · intro d still
          exact absurd (none ▸ still : d ∈ []) List.not_mem_nil
        · exact absurd ⟨failure, c, target, own⟩ holds.2
      · have same : Site.controls ⟨o.state, (o.reactor.unregister c.id).2⟩ = Site.controls ⟨o.state, o.reactor⟩ :=
          grounded.coherent.kindred_unregister (.of_found found own)
        have after : Site.Grounded none ⟨o.state, (o.reactor.unregister c.id).2⟩ :=
          ⟨coherent, foremost, grounded.configured, grounded.awake.of_eq same⟩
        refine (primary.of_eq after same).congr (and_iff_left ?_)
        rintro ⟨-, d, hit, control⟩
        cases target.symm.trans hit
        exact own control
  | call c receiver target fine held called outcome =>
      rw [outcome]
      refine (primary.runHandler (Sighting.target?_eq_some target).2.1 held).congr (and_iff_left ?_)
      exact fun severs => fine severs.1

theorem Primary.dispatch (primary : Site.Primary whole ⟨state, r⟩) (sightings : List Sighting) (calls : Nat) :
    Site.Primary (whole ∧ ∀ o ∈ occasions Handlers.ofKind sightings r state, ¬o.Severs)
      ⟨(r.dispatch Handlers.ofKind sightings calls state).2.2, (r.dispatch Handlers.ofKind sightings calls state).2.1⟩ := by
  induction sightings generalizing whole r state calls with
  | nil => exact primary.congr (and_iff_left (List.forall_mem_nil _))
  | cons sighting rest ih =>
      have next := Primary.turn (o := ⟨sighting, r, state⟩) primary
      simp only [Occasion.outcome] at next
      rw [Reactor.dispatch, occasions]
      generalize r.attend Handlers.ofKind sighting state = outcome at next
      obtain ⟨error | n, q, after⟩ := outcome
      · refine next.congr ?_
        rw [List.forall_mem_singleton]
      · refine (ih next _).congr ?_
        rw [List.forall_mem_cons, and_assoc]

theorem Primary.rouse (primary : Site.Primary whole ⟨state, r⟩) (wait : Wait) :
    Site.Primary whole ⟨state, r.roused wait⟩ := by
  have grounded := primary.grounded
  obtain ⟨connections, -, coherent⟩ := roused_spec wait r
  have same : Site.controls ⟨state, r.roused wait⟩ = Site.controls ⟨state, r⟩ := by
    rw [Site.controls, kindred, connections]
    rfl
  exact primary.of_eq ⟨coherent grounded.coherent, grounded.foremost.roused wait, grounded.configured,
    grounded.awake.of_eq same⟩ same

theorem Primary.round (primary : Site.Primary whole ⟨state, r⟩) (wait : Wait) :
    Site.Primary (whole ∧ ∀ o ∈ r.turns wait Handlers.ofKind state, ¬o.Severs)
      ⟨(r.round wait Handlers.ofKind state).2.2, (r.round wait Handlers.ofKind state).2.1⟩ := by
  have done := (primary.rouse wait).dispatch (r.noticed wait) 0
  rw [(round_eq wait Handlers.ofKind r state).1]
  exact done

theorem Primary.occasion (primary : Site.Primary whole ⟨state, r⟩) {wait : Wait} {o : Occasion State}
    (mem : o ∈ r.turns wait Handlers.ofKind state) : ∃ whole, Site.Primary whole ⟨o.state, o.reactor⟩ :=
  (turns_induction (I := fun q state => ∃ whole, Site.Primary whole ⟨state, q⟩) wait state ⟨whole, primary.rouse wait⟩
    fun _ ⟨_, primary⟩ => ⟨_, primary.turn⟩).1 o mem

theorem Primary.failed {o : Occasion State} (primary : Site.Primary whole ⟨o.state, o.reactor⟩) {c : Connection}
    {receiver : Receiver} (called : o.call? = some (c, receiver)) (control : c.kind = .controlConnect)
    (failed : (o.outcome Handlers.ofKind).1 ≠ .ok 1) : (o.outcome Handlers.ofKind).2.2.exit = true := by
  obtain ⟨target, held⟩ := Occasion.call?_eq_some called
  have mem : c ∈ Site.controls ⟨o.state, o.reactor⟩ :=
    mem_kindred.2 ⟨connection?_mem (Sighting.target?_eq_some target).2.1, control⟩
  obtain ⟨-, e, holds, -⟩ := primary.lone mem
  rw [endpoint?_of_receiver held] at holds
  rw [primary.grounded.coherent.outcome_of_call called, control] at failed ⊢
  cases answer : (o.reactor.runHandler (Handlers.ofKind .controlConnect) c.id receiver o.state).1 with
  | ok =>
      rw [answer] at failed
      exact absurd rfl failed
  | error message => exact Handlers.control_fails (s := o.reactor.opening c.id receiver o.state) holds answer

theorem Primary.severed {o : Occasion State} (primary : Site.Primary whole ⟨o.state, o.reactor⟩) (severs : o.Severs) :
    (o.outcome Handlers.ofKind).1 = .ok 0 ∧ (o.outcome Handlers.ofKind).2.2 = o.state ∧
      ∀ c ∈ (o.outcome Handlers.ofKind).2.1.connections, c.kind ≠ .controlConnect := by
  have after := (Primary.turn primary).gone fun holds => holds.2 severs
  have none : ∀ c ∈ (o.outcome Handlers.ofKind).2.1.connections, c.kind ≠ .controlConnect := fun c mem own =>
    absurd (after ▸ mem_kindred.2 ⟨mem, own⟩ : c ∈ []) List.not_mem_nil
  obtain ⟨failure, c, target, -⟩ := severs
  cases Coherent.course primary.grounded.coherent with
  | vain missing silent outcome => cases missing.symm.trans target
  | removal d target failure silent outcome =>
      refine ⟨?_, ?_, none⟩ <;> rw [outcome]
  | call d receiver target fine held called outcome => exact absurd failure fine

end Site

end TraceGate
