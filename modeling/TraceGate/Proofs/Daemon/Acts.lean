import TraceGate.Proofs.Daemon.Moves
import TraceGate.Proofs.Reactor.Reachable

namespace TraceGate

open Relation

namespace Reactor

variable {loan : Option Loan} {r r' r'' : Reactor}

inductive Step (loan : Option Loan) (r : Reactor) : Reactor → Prop
  | operation {error : Option EventError} {r' : Reactor} (operation : Operation anyGift loan r error r') : Step loan r r'
  | grow {host : Host} (grows : Host.Grows r.host host) : Step loan r { r with host }

def Goes (loan : Option Loan) (r r' : Reactor) : Prop := r.Coherent loan → ReflTransGen (Step loan) r r'

theorem Step.coherent (step : Step loan r r') (coherent : r.Coherent loan) : r'.Coherent loan := by
  cases step with
  | operation operation => exact (operation.coherent coherent).1
  | grow grows => exact coherent.grow grows

theorem steps_coherent (steps : ReflTransGen (Step loan) r r') (coherent : r.Coherent loan) : r'.Coherent loan := by
  induction steps with
  | refl => exact coherent
  | tail _ step ih => exact step.coherent ih

theorem Goes.refl (r : Reactor) : Goes loan r r := fun _ => .refl

theorem Goes.step (step : Step loan r r') : Goes loan r r' := fun _ => .single step

theorem Goes.trans (first : Goes loan r r') (second : Goes loan r' r'') : Goes loan r r'' := by
  intro coherent
  have steps := first coherent
  exact steps.trans (second (steps_coherent steps coherent))

theorem Goes.opened {kinds : EndpointKind → Prop} {e : Endpoint} {host : Host}
    (opens : Host.Opens kinds r.host (.ok e, host))
    (rest : ({ r with host } : Reactor).Loose loan e → Goes loan { r with host } r') : Goes loan r r' := by
  intro coherent
  obtain ⟨isOpen, new, -⟩ := opens.fresh e rfl
  exact (Goes.step (.grow opens.grows)).trans (rest (coherent.loose isOpen new)) coherent

theorem Goes.register (policy : KindSet) (kind : Kind) (wanted : Flags) {e : Endpoint} (loose : r.Loose loan e) :
    Goes loan r (r.register policy kind (.ofEndpoint e) wanted).2 := by
  refine .step (.operation (.register policy kind (.ofEndpoint e) wanted ?_ fun _ _ => trivial))
  rintro _ ⟨⟩
  exact loose

theorem Reachable.goes (reachable : r.Reachable) (goes : Goes none r r') : r'.Reachable := by
  have steps := goes reachable.coherent
  clear goes
  induction steps with
  | refl => exact reachable
  | tail _ step ih =>
      cases step with
      | operation operation => exact .operation ih operation
      | grow grows => exact .outside ih ⟨rfl, grows.sound, grows.next_le, fun e _ => grows.kept e, grows.opened⟩

end Reactor

namespace Site

open Reactor

variable {loan : Option Loan}

theorem ensureListener_goes (address : Net.Address) (s : Site) :
    Goes loan s.reactor (s.ensureListener address).2.reactor := by
  have opens := Host.opens_listenNetwork s.reactor.host address
  unfold Site.ensureListener Site.openListener
  rcases eq : s.reactor.host.listenNetwork address with ⟨outcome, host⟩
  rw [eq] at opens
  cases outcome with
  | error e =>
      have failed : Goes loan s.reactor { s.reactor with host } := .step (.grow opens.grows)
      dsimp only [Except.mapError]
      split
      · split
        · exact failed
        · exact .refl _
      · exact failed
  | ok e =>
      dsimp only [Except.mapError]
      split
      · split
        · exact .opened opens fun loose => .step (.operation (.assign _ e loose trivial))
        · exact .refl _
      · have registered : Goes loan s.reactor (({ s.reactor with host } : Reactor).register s.state.filter.allowed
            .clientConnect (.ofEndpoint e) Flags.input).2 := .opened opens fun loose => .register _ _ _ loose
        rw [react_eq]
        split <;> rename_i done <;> obtain ⟨-, rfl⟩ := Prod.mk.inj done <;> exact registered

theorem ensureEach_goes (addresses : List Net.Address) (s : Site) :
    Goes loan s.reactor (s.ensureEach addresses).2.reactor := by
  induction addresses generalizing s with
  | nil => exact .refl _
  | cons address addresses ih =>
      have first : Goes loan s.reactor (s.ensureListener address).2.reactor := ensureListener_goes address s
      unfold Site.ensureEach
      split <;> rename_i eq <;> rw [eq] at first
      · exact first
      · exact first.trans (ih _)

theorem ensureListeners_goes (s : Site) : Goes loan s.reactor s.ensureListeners.2.reactor := by
  unfold Site.ensureListeners
  split
  · exact ensureEach_goes _ s.forgetListeners
  · exact .refl _

theorem applyLevel_goes (level : Nat) (s : Site) : Goes loan s.reactor (s.applyLevel level).2.reactor := by
  unfold Site.applyLevel
  split
  · exact .refl _
  · rename_i change filter _
    have ready : Goes loan s.reactor (s.setFilter filter).ensureListeners.2.reactor :=
      ensureListeners_goes (s.setFilter filter)
    split <;> rename_i eq <;> rw [eq] at ready
    · exact ready
    · rename_i t
      have aligned : Goes loan s.reactor (t.reactor.reconcile t.state.filter.allowed .all).2 :=
        Goes.trans ready (.step (.operation (.reconcile t.state.filter.allowed .all)))
      rw [react_eq]
      split <;> rename_i done <;> obtain ⟨-, rfl⟩ := Prod.mk.inj done <;> exact aligned

end Site

namespace Handlers

variable {id : Nat} {s t : Scene State}

def Goes (id : Nat) (s t : Scene State) : Prop :=
  s.Coherent id → ReflTransGen (Scene.Step anyGift id) s t

theorem Goes.trans {u : Scene State} (first : Goes id s t) (second : Goes id t u) : Goes id s u := by
  intro coherent
  have steps := first coherent
  exact steps.trans (second (Scene.steps_coherent steps coherent))

theorem Goes.beside {receiver : Receiver} {host : Host} (same : receiver.endpoint = s.receiver.endpoint)
    (grows : Host.Grows s.reactor.host host) (state : State) :
    Goes id s { receiver, reactor := { s.reactor with host }, state } := by
  intro coherent
  refine .single (.outside ⟨rfl, grows.sound, grows.next_le, fun e _ => grows.kept e, grows.opened⟩ ?_ ?_)
  · intro e eq
    refine grows.kept e (coherent.books.isOpen e (List.mem_append_right _ ?_))
    simpa [Loan.endpoints, Scene.loan, ← same] using eq
  · intro e eq
    exact Or.inl (same ▸ eq)

theorem Goes.of_reactor {reactor : Reactor} (goes : Reactor.Goes (some (s.loan id)) s.reactor reactor) :
    Goes id s { s with reactor } := by
  intro coherent
  have steps := goes coherent
  clear goes
  induction steps with
  | refl => exact .refl
  | tail _ step ih =>
      cases step with
      | operation operation => exact ih.tail (.operation operation)
      | grow grows => exact ih.tail (.of_grows (Scene.steps_coherent ih coherent) grows)

theorem Move.goes {kind : Kind} (move : Move kind id s t) : Goes id s t := by
  cases move with
  | use same grows houses => exact .beside same grows s.state
  | note stats notices exit => exact .beside rfl (.refl _) _
  | @accept host e peer grows houses isOpen new other admits =>
      have opens : Host.Opens (fun _ => True) s.reactor.host (.ok e, host) :=
        ⟨grows, by rintro _ ⟨⟩; exact ⟨isOpen, new, trivial⟩⟩
      exact .of_reactor (.opened opens fun loose => .register _ peer _ loose)
  | unregister peer => exact .of_reactor (.step (.operation (.unregister id)))
  | forward bytes => exact .of_reactor (.step (.operation (.sendTo consumers bytes)))
  | level n leads =>
      have moved : Goes id s { s with reactor := (Site.applyLevel n ⟨s.state, s.reactor⟩).2.reactor } :=
        .of_reactor (Site.applyLevel_goes n ⟨s.state, s.reactor⟩)
      exact moved.trans (.beside rfl (.refl _) _)

theorem Moves.goes {kind : Kind} (moves : Moves kind id s t) : Goes id s t := by
  induction moves with
  | refl => exact fun _ => .refl
  | tail _ move ih => exact ih.trans move.goes

theorem ofKind_acts (kind : Kind) : (ofKind kind).Acts anyGift :=
  fun id s => Moves.goes (does_ofKind kind id s)

end Handlers

end TraceGate
