import TraceGate.Proofs.Reactor.Custody
import TraceGate.Proofs.Reactor.Reachable

namespace TraceGate

open Connection Relation

/-- A reactor, and what the handler holds that is running. -/
structure Moment where
  loan : Option Loan
  reactor : Reactor

namespace Moment

inductive Move : Moment → Moment → Prop
  | checkActivate {loan : Option Loan} {r : Reactor} (id : Nat) (policy : KindSet) (transition : Transition) :
      Move ⟨loan, r⟩ ⟨loan, (r.checkActivate id policy transition).2⟩
  | number {loan : Option Loan} {r : Reactor} : Move ⟨loan, r⟩ ⟨loan, { r with ids := r.ids.take.2 }⟩
  | add {loan : Option Loan} {r : Reactor} (id : Nat) (kind : Kind) {receiver : Receiver} (wanted : Flags)
      (loose : ∀ e, receiver.endpoint = some e → r.Loose loan e) :
      Move ⟨loan, r⟩ ⟨loan, r.add (.new id kind receiver wanted)⟩
  | remove {loan : Option Loan} {r : Reactor} {c : Connection} (found : r.connection? c.id = some c)
      (inactive : c.activity = .inactive) : Move ⟨loan, r⟩ ⟨loan, r.remove c⟩
  | assign {loan : Option Loan} {r : Reactor} (id : Nat) {e : Endpoint} (loose : r.Loose loan e) :
      Move ⟨loan, r⟩ ⟨loan, (r.assign id e).2⟩
  | outside {loan loan' : Option Loan} {r r' : Reactor} (elapses : Reactor.Elapses r r')
      (number : loan.map (·.id) = loan'.map (·.id))
      (lent : ∀ e ∈ Loan.endpoints loan', r'.host.IsOpen e ∧ e ∉ r.connections.filterMap endpoint?) :
      Move ⟨loan, r⟩ ⟨loan', r'⟩
  | record {r : Reactor} (seen : List Flags) : Move ⟨none, r⟩ ⟨none, { r with table := r.table.record seen }⟩
  | clear {r : Reactor} : Move ⟨none, r⟩ ⟨none, { r with table := r.table.clear }⟩
  | lend {r : Reactor} {c : Connection} {receiver : Receiver} (found : r.connection? c.id = some c)
      (active : c.IsActive) (held : c.receiver = some receiver) :
      Move ⟨none, r⟩ ⟨some ⟨c.id, receiver.endpoint⟩, r.update c.id Connection.lend⟩
  | restore {r : Reactor} (id : Nat) (receiver : Receiver) :
      Move ⟨some ⟨id, receiver.endpoint⟩, r⟩ ⟨none, r.restore id receiver⟩

abbrev Leads : Moment → Moment → Prop := ReflTransGen Move

def Coherent (m : Moment) : Prop := m.reactor.Coherent m.loan

variable {loan : Option Loan} {r r' : Reactor} {m n : Moment} {id : Nat}

theorem Move.coherent (move : Move m n) (coherent : m.Coherent) : n.Coherent := by
  have coherent : m.reactor.Coherent m.loan := coherent
  cases move with
  | checkActivate id policy transition => exact coherent.checkActivate id policy transition
  | number => exact ⟨coherent.sound, coherent.books, coherent.present, coherent.counted⟩
  | @add loan r id kind receiver wanted loose => exact coherent.addNew loose r.ids id kind wanted
  | remove found inactive => exact Reactor.Coherent.remove coherent found inactive
  | assign id loose => exact (coherent.assign loose id).1
  | outside elapses number lent => exact elapses.coherent coherent number lent
  | record seen => exact coherent.record seen
  | clear => exact coherent.clear
  | lend found active held => exact coherent.lend found held
  | restore id receiver => exact Reactor.Coherent.restore coherent

theorem Leads.coherent (leads : Leads m n) (coherent : m.Coherent) : n.Coherent := by
  induction leads with
  | refl => exact coherent
  | tail _ move ih => exact move.coherent ih

theorem Move.opened (move : Move m n) : m.reactor.host.next ≤ n.reactor.host.next ∧
    ∀ e, n.reactor.host.IsOpen e → m.reactor.host.IsOpen e ∨ m.reactor.host.next ≤ e.id := by
  have inside {r r' : Reactor} (custody : Custody (fun _ _ _ => True) r r') :
      r.host.next ≤ r'.host.next ∧ ∀ e, r'.host.IsOpen e → r.host.IsOpen e ∨ r.host.next ≤ e.id :=
    ⟨custody.next_le, custody.opened⟩
  cases move with
  | checkActivate id policy transition => exact inside (.checkActivate _ id policy transition)
  | number => exact inside (.number _)
  | add id kind wanted loose => exact inside (.add _ _ fun _ _ => trivial)
  | remove found inactive => exact inside (.remove _ _)
  | assign id loose => exact inside (.assign _ id _ fun _ _ _ => trivial)
  | outside elapses number lent => exact ⟨elapses.next_le, elapses.opened⟩
  | record seen => exact ⟨le_rfl, fun _ => Or.inl⟩
  | clear => exact ⟨le_rfl, fun _ => Or.inl⟩
  | lend found active held => exact inside (.lend _ _)
  | restore id receiver => exact inside (.restore _ id receiver fun _ _ _ _ _ => trivial)

theorem Leads.closed (leads : Leads m n) {e : Endpoint} (old : e.id < m.reactor.host.next)
    (closed : ¬m.reactor.host.IsOpen e) : ¬n.reactor.host.IsOpen e := by
  have both : e.id < n.reactor.host.next ∧ ¬n.reactor.host.IsOpen e := by
    induction leads with
    | refl => exact ⟨old, closed⟩
    | tail _ move ih =>
        obtain ⟨next_le, opened⟩ := move.opened
        refine ⟨ih.1.trans_le next_le, fun isOpen => ?_⟩
        rcases opened e isOpen with before | new
        · exact ih.2 before
        · exact absurd ih.1 (Nat.not_lt.2 new)
  exact both.2

theorem leads_outside (elapses : Reactor.Elapses r r') (coherent : r.Coherent loan)
    (kept : ∀ e ∈ Loan.endpoints loan, r'.host.IsOpen e) : Leads ⟨loan, r⟩ ⟨loan, r'⟩ := by
  refine .single (.outside elapses rfl fun e mem => ⟨kept e mem, fun held => ?_⟩)
  exact (List.nodup_append.1 coherent.books.unique).2.2 e held e mem rfl

theorem leads_grow (coherent : r.Coherent loan) {host : Host} (grows : Host.Grows r.host host) :
    Leads ⟨loan, r⟩ ⟨loan, { r with host }⟩ := by
  refine leads_outside ⟨rfl, grows.sound, grows.next_le, fun e _ => grows.kept e, grows.opened⟩ coherent fun e mem => ?_
  exact grows.kept e (coherent.books.isOpen e (List.mem_append_right _ mem))

theorem leads_discard (coherent : r.Coherent loan) (receiver : Receiver)
    (loose : ∀ e, receiver.endpoint = some e → r.Loose loan e) : Leads ⟨loan, r⟩ ⟨loan, r.discard receiver⟩ := by
  have shrinks := receiver.drop_shrinks r.host
  have kept : ∀ e ∈ r.connections.filterMap endpoint? ++ Loan.endpoints loan, r.host.IsOpen e →
      (receiver.drop r.host).IsOpen e := fun e mem isOpen =>
    (receiver.drop_isOpen _ e).2 ⟨isOpen, fun own => (loose e own).2 mem⟩
  refine leads_outside ⟨rfl, shrinks.sound, shrinks.next_eq.ge, fun e mem => kept e (List.mem_append_left _ mem),
    fun e isOpen => Or.inl ((receiver.drop_isOpen _ e).1 isOpen).1⟩ coherent fun e mem => ?_
  exact kept e (List.mem_append_right _ mem) (coherent.books.isOpen e (List.mem_append_right _ mem))

theorem leads_checkAll (policy : KindSet) (ids : List Nat) (r : Reactor) :
    Leads ⟨loan, r⟩ ⟨loan, (r.checkAll policy ids).2⟩ := by
  induction ids generalizing r with
  | nil => exact .refl
  | cons id ids ih =>
      have checked : Move ⟨loan, r⟩ ⟨loan, (r.checkActivate id policy .activate).2⟩ :=
        .checkActivate id policy .activate
      unfold Reactor.checkAll
      split <;> rename_i eq <;> rw [eq] at checked
      · exact .head checked (ih _)
      · exact .single checked

theorem leads_unregister (coherent : r.Coherent loan) (id : Nat) : Leads ⟨loan, r⟩ ⟨loan, (r.unregister id).2⟩ := by
  have checked : Move ⟨loan, r⟩ ⟨loan, (r.checkActivate id ∅ .deactivate).2⟩ := .checkActivate id ∅ .deactivate
  unfold Reactor.unregister
  cases found : r.connection? id with
  | none => rw [Reactor.checkActivate_of_none found]
  | some c =>
      obtain ⟨r', c', eq, found', inactive, -⟩ := coherent.checkActivate_deactivate found
      obtain rfl := (Reactor.connection?_split found').1
      rw [eq] at checked ⊢
      dsimp only
      rw [found']
      exact (ReflTransGen.single checked).tail (.remove found' inactive)

theorem leads_unregisterAll (coherent : r.Coherent loan) (ids : List Nat) :
    Leads ⟨loan, r⟩ ⟨loan, r.unregisterAll ids⟩ := by
  induction ids generalizing r with
  | nil => exact .refl
  | cons id ids ih => exact (leads_unregister coherent id).trans (ih (coherent.unregister id).1)

theorem leads_register (coherent : r.Coherent loan) {receiver : Receiver}
    (loose : ∀ e, receiver.endpoint = some e → r.Loose loan e) (policy : KindSet) (kind : Kind) (wanted : Flags) :
    Leads ⟨loan, r⟩ ⟨loan, (r.register policy kind receiver wanted).2⟩ := by
  have numbered : Leads ⟨loan, r⟩ ⟨loan, { r with ids := r.ids.take.2 }⟩ := .single .number
  unfold Reactor.register
  split
  · exact .refl
  · dsimp only
    have added : Leads ⟨loan, r⟩ ⟨loan, ({ r with ids := r.ids.take.2 } : Reactor).add
        (.new r.ids.take.1 kind receiver wanted)⟩ := numbered.tail (.add r.ids.take.1 kind wanted loose)
    have checked := added.tail (.checkActivate r.ids.take.1 policy .activate)
    split <;> rename_i eq
    · rw [eq] at checked
      exact checked
    · have same := ((added.coherent coherent).checkActivate_error (congrArg Prod.fst eq)).1
      obtain rfl := (congrArg Prod.snd eq).symm.trans same
      have back : (({ r with ids := r.ids.take.2 } : Reactor).add (.new r.ids.take.1 kind receiver wanted)).withdraw
          receiver kind = ({ r with ids := r.ids.take.2 } : Reactor).discard receiver :=
        Reactor.withdraw_add _ _ receiver
      dsimp only
      rw [back]
      exact numbered.trans (leads_discard (numbered.coherent coherent) receiver loose)

end Moment

namespace Reactor

open Moment

variable {loan : Option Loan} {r r' : Reactor}

theorem Operation.leads {gives : Nat → Endpoint → Prop} {error : Option EventError}
    (operation : Operation gives loan r error r') (coherent : r.Coherent loan) : Leads ⟨loan, r⟩ ⟨loan, r'⟩ := by
  cases operation with
  | register policy kind receiver wanted loose given => exact leads_register coherent loose policy kind wanted
  | unregister id => exact leads_unregister coherent id
  | checkActivate id policy transition => exact .single (.checkActivate id policy transition)
  | reconcile policy kinds => exact leads_checkAll policy (r.idsOf kinds) r
  | assign id e loose given => exact .single (.assign id loose)
  | sendTo kinds bytes =>
      have grows := sendEach_grows bytes (r.connections.filter fun c => c.IsActive ∧ c.kind ∈ kinds) r.host
      exact (leads_grow coherent grows).trans (leads_unregisterAll (coherent.grow grows) _)
  | cleanup => exact leads_unregisterAll coherent _

end Reactor

namespace Scene

open Moment

variable {σ : Type} {gives : Nat → Endpoint → Prop} {id : Nat} {s s' : Scene σ}

def moment (id : Nat) (s : Scene σ) : Moment := ⟨some (s.loan id), s.reactor⟩

theorem Step.leads (step : Step gives id s s') (coherent : s.Coherent id) : Leads (s.moment id) (s'.moment id) := by
  cases step with
  | operation operation => exact operation.leads coherent
  | outside elapses isOpen given =>
      refine .single (.outside elapses rfl fun e mem => ?_)
      have own : s'.receiver.endpoint = some e := Option.mem_toList.1 mem
      refine ⟨isOpen e own, ?_⟩
      rcases given e own with same | ⟨apart, -⟩
      · have unique := List.nodup_append.1 coherent.books.unique
        exact fun held => unique.2.2 e held e (by simp [Loan.endpoints, loan, same]) rfl
      · exact apart

theorem steps_lead (steps : ReflTransGen (Step gives id) s s') (coherent : s.Coherent id) :
    Leads (s.moment id) (s'.moment id) := by
  induction steps with
  | refl => exact .refl
  | tail before last ih => exact ih.trans (last.leads (steps_coherent before coherent))

end Scene

namespace Reactor

open Moment

variable {σ : Type} {gives : Nat → Endpoint → Prop} {handlers : Kind → Handler σ} {wait : Wait} {r q : Reactor}

theorem Coherent.leads_attend (coherent : q.Coherent none) (acts : ∀ kind, (handlers kind).Acts gives) (s : Sighting)
    (state : σ) : Leads ⟨none, q⟩ ⟨none, (q.attend handlers s state).2.1⟩ := by
  rcases coherent.attend_cases handlers s state with ⟨-, eq⟩ | ⟨c, receiver, target, held, eq | ⟨_, -, eq⟩⟩ <;> rw [eq]
  · rw [coherent.unwatchStray]
  · exact leads_unregister coherent c.id
  · obtain ⟨-, found, active, -⟩ := Sighting.target?_eq_some target
    have opened := coherent.opening found held state
    have called := Scene.steps_lead (acts c.kind c.id _ opened) opened
    have lent : Leads ⟨none, q⟩ ((q.opening c.id receiver state).moment c.id) := .single (.lend found active held)
    rw [runHandler_snd]
    exact (lent.trans called).tail (.restore c.id _)

theorem leads_awoken (r : Reactor) (seen : List Flags) : Leads ⟨none, r⟩ ⟨none, r.awoken seen⟩ :=
  (ReflTransGen.single (.record seen)).tail .clear

theorem Coherent.leads_round (coherent : r.Coherent none) (wait : Wait) (acts : ∀ kind, (handlers kind).Acts gives)
    (state : σ) : Leads ⟨none, r⟩ ⟨none, (r.round wait handlers state).2.1⟩ := by
  let I (q : Reactor) (_ : σ) : Prop := Leads ⟨none, r⟩ ⟨none, q⟩
  have record (seen : List Flags) : I { r with table := r.table.record seen } state := .single (.record seen)
  have waiting : ∀ error, wait r.host r.table.occupied = .error error → True := fun _ _ => trivial
  have turn (s : Sighting) (q : Reactor) (state : σ) (before : I q state) :
      I (q.attend handlers s state).2.1 (q.attend handlers s state).2.2 ∧
        ∀ error, (q.attend handlers s state).1 = .error error → True :=
    ⟨before.trans ((before.coherent coherent).leads_attend acts s state), fun _ _ => trivial⟩
  exact (round_invariant turn record (leads_awoken r) .refl waiting).1

theorem Meets.leads {state : σ} {id : Nat} {s : Scene σ} (meets : Meets wait handlers r state id s)
    (acts : ∀ kind, (handlers kind).Acts anyGift) (coherent : r.Coherent none) : Leads ⟨none, r⟩ (s.moment id) := by
  obtain ⟨seen, comes, target, held, steps⟩ := meets
  have leads := comesUp_invariant (I := fun q (_ : σ) => Leads ⟨none, r⟩ ⟨none, q⟩)
    (fun s q state before => before.trans ((before.coherent coherent).leads_attend acts s state)) comes
    (leads_awoken r _)
  obtain ⟨-, found, active, -⟩ := Sighting.target?_eq_some target
  have between : Reactor.Coherent none _ := leads.coherent coherent
  exact (leads.tail (.lend found active held)).trans (Scene.steps_lead steps (between.opening found held _))

end Reactor

end TraceGate
