import TraceGate.Proofs.Daemon.Forwarding
import TraceGate.Proofs.Daemon.Repeating
import TraceGate.Proofs.Daemon.Tending

namespace TraceGate

open Connection Reactor

namespace Site

variable {P : Connection → Prop} {s : Site}

section

variable (lasting : ∀ policy, Lasting policy P)

include lasting

theorem each_ensureListener (address : Net.Address) (each : s.reactor.Each P) : (s.ensureListener address).2.reactor.Each P := by
  rcases ensureListener_cases address s with ⟨-, -, connections⟩ | ⟨-, provides⟩
  · exact each.of_subset (connections ▸ List.Subset.refl _)
  · generalize (s.ensureListener address).2 = t at provides ⊢
    cases provides with
    | kept listed holds => exact each
    | @assigned id e host listed ok => exact Each.assign (r := { s.reactor with host }) (lasting ∅) each id e
    | @registered id e host unlisted ok => exact Each.register (r := { s.reactor with host }) (lasting _) each _ e _

theorem each_ensureEach (addresses : List Net.Address) (each : s.reactor.Each P) :
    (s.ensureEach addresses).2.reactor.Each P := by
  induction addresses generalizing s with
  | nil => exact each
  | cons address addresses ih =>
      have first := each_ensureListener lasting address each
      unfold Site.ensureEach
      split <;> rename_i eq <;> rw [eq] at first
      · exact first
      · exact ih first

theorem each_ensureListeners (each : s.reactor.Each P) : s.ensureListeners.2.reactor.Each P := by
  unfold Site.ensureListeners
  split
  · exact each_ensureEach lasting s.state.settings.listenAddresses (s := s.forgetListeners) each
  · exact each

theorem each_applyLevel (level : Nat) (each : s.reactor.Each P) : (s.applyLevel level).2.reactor.Each P := by
  rcases applyLevel_phases level s with ⟨e, same⟩ | ⟨filter, t, ⟨e, ensured, same⟩ | ⟨ensured, same, -⟩⟩
  · rwa [same]
  · have after := each_ensureListeners lasting (s := s.setFilter filter) each
    rw [same]
    rwa [ensured] at after
  · have after := each_ensureListeners lasting (s := s.setFilter filter) each
    rw [same]
    rw [ensured] at after
    exact after.checkAll (lasting _) _

end

end Site

namespace Handlers

variable {P : Connection → Prop} {kind : Kind} {id : Nat} {s t : Scene State}

theorem Move.each (move : Move kind id s t) (lasting : ∀ policy, Lasting policy P) (each : s.reactor.Each P) : t.reactor.Each P := by
  cases move with
  | use same grows houses => exact each
  | note stats notices exit => exact each
  | @accept host e peer grows houses isOpen new other admits =>
      exact Each.register (r := { s.reactor with host }) (lasting _) each _ e _
  | unregister peer => exact each.unregister (lasting ∅) id
  | forward bytes => exact each.sendTo (lasting ∅) consumers bytes
  | level n leads => exact Site.each_applyLevel lasting (s := siteOf s) n each

theorem Moves.each (moves : Moves kind id s t) (lasting : ∀ policy, Lasting policy P) (each : s.reactor.Each P) : t.reactor.Each P := by
  induction moves with
  | refl => exact each
  | tail _ move ih => exact move.each lasting ih

end Handlers

def Connection.Drained (c : Connection) : Prop :=
  c.kind = .appMsg → ∀ receiver, c.receiver = some receiver → receiver.buffer = []

theorem lasting_drained (policy : KindSet) : Lasting policy Drained where
  new _ _ _ _ := by rintro - _ ⟨⟩; rfl
  start _ drained := drained
  pause drained := drained
  shut client _ application := by cases client.symm.trans application
  take _ _ := by rintro - _ ⟨⟩; rfl

namespace Handlers

variable {kind : Kind} {id : Nat} {s t : Scene State}

theorem forward_drained (id : Nat) (drained : s.receiver.buffer = []) : ((forward id).run.run s).2.receiver.buffer = [] := by
  by_cases read : reading s = .filled
  · rw [forward_run id read]
    exact List.drop_length
  · rwa [(forward_unread id read).1]

end Handlers

namespace Site

variable {r : Reactor} {state : State} {o : Occasion State}

def Drains (s : Site) : Prop := s.reactor.ids.next < idBound → s.reactor.Each Drained

theorem Drains.turn (drains : Drains ⟨o.state, o.reactor⟩) (tended : Tended ⟨o.state, o.reactor⟩) :
    Drains ⟨(o.outcome Handlers.ofKind).2.2, (o.outcome Handlers.ofKind).2.1⟩ := by
  intro last
  have before : o.reactor.ids.next < idBound := (attend_later o.sighting o.reactor o.state).ids_le.trans_lt last
  have each := drains before
  have listed := tended before
  have coherent : o.reactor.Coherent none := listed.coherent
  cases coherent.course with
  | vain target silent outcome =>
      rw [outcome]
      exact each
  | removal c target failure silent outcome =>
      rw [outcome]
      exact each.unregister (lasting_drained ∅) c.id
  | call c receiver target fine held called outcome =>
      rw [outcome] at last ⊢
      dsimp only at last ⊢
      rw [runHandler_snd] at last ⊢
      have found := (Sighting.target?_eq_some target).2.1
      have moves := Handlers.does_ofKind c.kind c.id (o.reactor.opening c.id receiver o.state)
      have opened := listed.opening found held
      have emptied : c.kind = .appMsg → ((Handlers.ofKind c.kind c.id).run.run
          (o.reactor.opening c.id receiver o.state)).2.receiver.buffer = [] := fun application => by
        rw [application]
        exact Handlers.forward_drained c.id (each c (connection?_mem found) application receiver held)
      generalize ((Handlers.ofKind c.kind c.id).run.run (o.reactor.opening c.id receiver o.state)).2 = final
        at last moves emptied ⊢
      have lent : (o.reactor.update c.id Connection.lend).Each Drained :=
        each.update fun _ _ _ _ _ none => by cases none
      refine (moves.each lasting_drained lent).restore (lasting_drained ∅) fun d own _ application receiver' back => ?_
      cases back
      have same : d.id = c.id := (connection?_split own).1
      have stop : final.reactor.ids.next < idBound :=
        (congrArg Ids.next (restore_keys final.reactor c.id final.receiver).2).ge.trans_lt last
      -- While numbers last, the receiver goes back to a connection of the kind it was taken from.
      exact emptied ((moves.kind_of_own stop opened (listed.opening_own found) (connection?_mem own) same).symm.trans application)

theorem Drains.rouse (drains : Drains ⟨state, r⟩) (wait : Wait) : Drains ⟨state, r.roused wait⟩ := by
  obtain ⟨connections, counter, -⟩ := roused_spec wait r
  exact fun last => (drains (counter ▸ last)).of_subset (connections ▸ List.Subset.refl _)

theorem Drains.turns (drains : Drains ⟨state, r⟩) (tended : Tended ⟨state, r⟩) (wait : Wait) :
    (∀ o ∈ r.turns wait Handlers.ofKind state, Tended ⟨o.state, o.reactor⟩ ∧ Drains ⟨o.state, o.reactor⟩) ∧
      Tended ⟨(r.round wait Handlers.ofKind state).2.2, (r.round wait Handlers.ofKind state).2.1⟩ ∧
      Drains ⟨(r.round wait Handlers.ofKind state).2.2, (r.round wait Handlers.ofKind state).2.1⟩ :=
  turns_induction (I := fun q state => Tended ⟨state, q⟩ ∧ Drains ⟨state, q⟩) wait state ⟨tended.rouse wait, drains.rouse wait⟩
    fun _ kept => ⟨kept.1.turn, kept.2.turn kept.1⟩

end Site

namespace Daemon

open Site

variable {settings : Settings} {filter : Filter.MessageFilter} {entries : List Entry} {d : Daemon}

theorem drained_law : Law fun s => s.reactor.Each Drained where
  outside _ _ _ each := each
  register _ _ _ _ each := each.register (lasting_drained _) _ _ _
  level level each := each_applyLevel lasting_drained level each

theorem History.drains (history : History settings filter entries d) : d.site.Drains := by
  induction history with
  | start sound ok => exact fun _ => (start_kept drained_law sound (List.forall_mem_nil _) ok).lawful
  | runOnce before wait ih => exact (ih.turns (History.tended before) wait).2.2
  | @setLevel entries d before level ih =>
      exact fun last => each_applyLevel lasting_drained level (ih ((applyLevel_later level d.site).ids_le.trans_lt last))
  | @beside entries d before s elapses ih =>
      have connections : s.reactor.connections = d.site.reactor.connections := by rw [elapses.reactor.rest]
      have counter : s.reactor.ids = d.site.reactor.ids := by rw [elapses.reactor.rest]
      exact fun last => (ih (counter ▸ last)).of_subset (connections ▸ List.Subset.refl _)
  | shutdown before ih =>
      rcases shutdown_cases (History.reachable before) with ⟨same, -⟩ | ⟨-, -, -, empty⟩
      · rwa [same]
      · exact fun _ => by simp [Reactor.Each, empty]

end Daemon

end TraceGate
