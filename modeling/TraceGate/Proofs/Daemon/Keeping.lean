import TraceGate.Proofs.Daemon.Control
import TraceGate.Proofs.Daemon.Tending

namespace TraceGate

open Connection

namespace Site

open Reactor

/-- While a handler runs the property may be another one, which depends on what the handler was lent. -/
structure Keeping (I : Option Loan → Site → Prop) : Prop where
  roused : ∀ {r : Reactor} {state : State}, r.Coherent none → ∀ wait, I none ⟨state, r⟩ → I none ⟨state, r.roused wait⟩
  removal : ∀ {r : Reactor} {state : State}, r.Coherent none → ∀ id, I none ⟨state, r⟩ →
    I none ⟨state, (r.unregister id).2⟩
  opening : ∀ {r : Reactor} {state : State} {c : Connection} {receiver : Receiver}, r.Coherent none →
    r.connection? c.id = some c → c.receiver = some receiver → receiver.endpoint.isSome → I none ⟨state, r⟩ →
    I (some ⟨c.id, receiver.endpoint⟩) ⟨state, r.update c.id Connection.lend⟩
  deed : ∀ {kind : Kind} {id : Nat} {s t : Scene State}, Handlers.Deed kind id s t → s.Coherent id →
    I (some (s.loan id)) (Handlers.siteOf s) → I (some (t.loan id)) (Handlers.siteOf t)
  restore : ∀ {r : Reactor} {state : State} {id : Nat} {receiver : Receiver}, receiver.endpoint.isSome →
    r.Coherent (some ⟨id, receiver.endpoint⟩) → I (some ⟨id, receiver.endpoint⟩) ⟨state, r⟩ →
    I none ⟨state, r.restore id receiver⟩

variable {I : Option Loan → Site → Prop} {r : Reactor} {state : State} {o : Occasion State} {wait : Wait}

theorem Keeping.deeds (keeping : Keeping I) {kind : Kind} {id : Nat} {s t : Scene State} (deeds : Handlers.Deeds kind id s t)
    (coherent : s.Coherent id) (holds : I (some (s.loan id)) (Handlers.siteOf s)) :
    I (some (t.loan id)) (Handlers.siteOf t) := by
  induction deeds with
  | refl => exact holds
  | tail deeds deed ih =>
      have goes := Handlers.Moves.goes (Handlers.Deeds.moves deeds)
      exact keeping.deed deed (Scene.steps_coherent (goes coherent) coherent) ih

theorem endpoint_of_target {s : Sighting} {c : Connection} {receiver : Receiver} (coherent : r.Coherent none)
    (target : s.target? r = some c) (held : c.receiver = some receiver) : receiver.endpoint.isSome := by
  obtain ⟨-, found, active, -⟩ := Sighting.target?_eq_some target
  obtain ⟨fd, known⟩ := coherent.known found active
  rw [(coherent.books.settled c (connection?_mem found)).fd receiver held] at known
  exact Option.isSome_iff_exists.2 ((Option.map_eq_some_iff.1 known).imp fun _ => And.left)

theorem Keeping.turn (keeping : Keeping I) (coherent : o.reactor.Coherent none) (holds : I none ⟨o.state, o.reactor⟩) :
    I none ⟨(o.outcome Handlers.ofKind).2.2, (o.outcome Handlers.ofKind).2.1⟩ := by
  cases coherent.course with
  | vain target silent outcome =>
      rw [outcome]
      exact holds
  | removal c target failure silent outcome =>
      rw [outcome]
      exact keeping.removal coherent c.id holds
  | call c receiver target fine held called outcome =>
      rw [outcome]
      have lent := endpoint_of_target coherent target held
      have opened := coherent.opening (Sighting.target?_eq_some target).2.1 held o.state
      have deeds := Handlers.performs_ofKind c.kind c.id (o.reactor.opening c.id receiver o.state)
      have start := keeping.opening coherent (Sighting.target?_eq_some target).2.1 held lent holds
      dsimp only
      rw [runHandler_snd]
      generalize ((Handlers.ofKind c.kind c.id).run.run (o.reactor.opening c.id receiver o.state)).2 = final at deeds ⊢
      have moves := Handlers.Deeds.moves deeds
      have same : final.receiver.endpoint = receiver.endpoint := Handlers.Moves.endpoint moves
      exact keeping.restore (same ▸ lent) (Scene.steps_coherent (Handlers.Moves.goes moves opened) opened)
        (keeping.deeds deeds opened start)

theorem attend_coherent (coherent : o.reactor.Coherent none) :
    (o.outcome Handlers.ofKind).2.1.Coherent none :=
  (coherent.attend Handlers.ofKind_acts o.sighting o.state).1

theorem Keeping.turns (keeping : Keeping I) (coherent : r.Coherent none) (holds : I none ⟨state, r⟩) (wait : Wait) :
    (∀ o ∈ r.turns wait Handlers.ofKind state, o.reactor.Coherent none ∧ I none ⟨o.state, o.reactor⟩) ∧
      (r.round wait Handlers.ofKind state).2.1.Coherent none ∧
      I none ⟨(r.round wait Handlers.ofKind state).2.2, (r.round wait Handlers.ofKind state).2.1⟩ :=
  turns_induction (I := fun q state => q.Coherent none ∧ I none ⟨state, q⟩) wait state
    ⟨(roused_spec wait r).2.2 coherent, keeping.roused coherent wait holds⟩
    fun _ both => ⟨attend_coherent both.1, keeping.turn both.1 both.2⟩

theorem Keeping.round (keeping : Keeping I) (coherent : r.Coherent none) (holds : I none ⟨state, r⟩) (wait : Wait) :
    I none ⟨(r.round wait Handlers.ofKind state).2.2, (r.round wait Handlers.ofKind state).2.1⟩ :=
  (keeping.turns coherent holds wait).2.2

theorem Keeping.occasion (keeping : Keeping I) (coherent : r.Coherent none) (holds : I none ⟨state, r⟩)
    (mem : o ∈ r.turns wait Handlers.ofKind state) : o.reactor.Coherent none ∧ I none ⟨o.state, o.reactor⟩ :=
  (keeping.turns coherent holds wait).1 o mem

end Site

namespace Daemon

variable {I : Option Loan → Site → Prop} {settings : Settings} {filter : Filter.MessageFilter} {running : Option Kind}
  {s : Site}

theorem Visited.keeps (visited : Visited settings filter running s) (keeping : Site.Keeping I)
    (move : ∀ {kind : Kind} {id : Nat} {s t : Scene State}, Handlers.Move kind id s t → s.Coherent id →
      I (some (s.loan id)) (Handlers.siteOf s) → I (some (t.loan id)) (Handlers.siteOf t))
    (between : ∀ entries d, History settings filter entries d → I none d.site) : ∃ loan, I loan s := by
  cases visited with
  | between history => exact ⟨none, between _ _ history⟩
  | turn history mem =>
      exact ⟨none, (keeping.occasion history.reachable.coherent (between _ _ history) mem).2⟩
  | @call entries d history wait o mem c receiver called s moves =>
      obtain ⟨target, held⟩ := Occasion.call?_eq_some called
      obtain ⟨coherent, holds⟩ := keeping.occasion history.reachable.coherent (between _ _ history) mem
      have found := (Reactor.Sighting.target?_eq_some target).2.1
      have opened := coherent.opening found held o.state
      have start := keeping.opening coherent found held (Site.endpoint_of_target coherent target held) holds
      refine ⟨some (s.loan c.id), ?_⟩
      induction moves with
      | refl => exact start
      | tail moves step ih =>
          exact move step (Scene.steps_coherent (Handlers.Moves.goes moves opened) opened) ih

end Daemon

end TraceGate
