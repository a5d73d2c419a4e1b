import Mathlib.Logic.Relation
import TraceGate.Proofs.Reactor.Lending

/-!
# What may happen to a reactor

`Operation` lists the operations of a reactor and `Elapses` is what may happen beside them. A handler
`Acts` if all it does is a sequence of these, and of changes to the receiver that it was lent.

An endpoint that is handed to the reactor belongs to nobody else. `gives id e` says that the connection
with the number `id` may be given the endpoint `e`.
-/

namespace TraceGate

open Connection Relation

def EventError.of? {α : Type} : Except EventError α → Option EventError
  | .ok _ => none
  | .error e => some e

theorem EventError.of?_eq_some {α : Type} {outcome : Except EventError α} {error : EventError} :
    EventError.of? outcome = some error ↔ outcome = .error error := by
  cases outcome <;> simp [EventError.of?]

namespace Reactor

inductive Operation (gives : Nat → Endpoint → Prop) (loan : Option Loan) (r : Reactor) :
    Option EventError → Reactor → Prop
  | register (policy : KindSet) (kind : Kind) (receiver : Receiver) (wanted : Flags)
      (loose : ∀ e, receiver.endpoint = some e → r.Loose loan e)
      (given : ∀ e, receiver.endpoint = some e → gives r.ids.take.1 e) :
      Operation gives loan r (EventError.of? (r.register policy kind receiver wanted).1)
        (r.register policy kind receiver wanted).2
  | unregister (id : Nat) :
      Operation gives loan r (EventError.of? (r.unregister id).1) (r.unregister id).2
  | checkActivate (id : Nat) (policy : KindSet) (transition : Transition) :
      Operation gives loan r (EventError.of? (r.checkActivate id policy transition).1)
        (r.checkActivate id policy transition).2
  | reconcile (policy kinds : KindSet) :
      Operation gives loan r (EventError.of? (r.reconcile policy kinds).1) (r.reconcile policy kinds).2
  | assign (id : Nat) (e : Endpoint) (loose : r.Loose loan e) (given : gives id e) :
      Operation gives loan r (EventError.of? (r.assign id e).1) (r.assign id e).2
  | sendTo (kinds : KindSet) (bytes : Bytes) : Operation gives loan r none (r.sendTo kinds bytes).2
  | cleanup : Operation gives loan r none r.cleanup

/-- What happens outside: endpoints come and go, but for those of connections, and the memory that is
left changes. -/
structure Elapses (r r' : Reactor) : Prop where
  rest : r' = { r with host := r'.host, table := { r.table with room := r'.table.room } }
  sound : r.host.Sound → r'.host.Sound
  next_le : r.host.next ≤ r'.host.next
  kept : ∀ e ∈ r.connections.filterMap endpoint?, r.host.IsOpen e → r'.host.IsOpen e
  opened : ∀ e, r'.host.IsOpen e → r.host.IsOpen e ∨ r.host.next ≤ e.id

variable {gives : Nat → Endpoint → Prop} {loan : Option Loan} {r r' : Reactor} {error : Option EventError}

theorem Operation.coherent (operation : Operation gives loan r error r') (coherent : r.Coherent loan) :
    r'.Coherent loan ∧ ∀ id activity, error ≠ some (.invalidStatus id activity) := by
  have valid : ∀ {α : Type} {outcome : Except EventError α},
      (∀ id activity, outcome ≠ .error (.invalidStatus id activity)) →
        ∀ id activity, EventError.of? outcome ≠ some (.invalidStatus id activity) :=
    fun never id activity bad => never id activity (EventError.of?_eq_some.1 bad)
  cases operation with
  | register policy kind receiver wanted loose given =>
      obtain ⟨after, never⟩ := coherent.register loose policy kind wanted
      exact ⟨after, valid never⟩
  | unregister id =>
      obtain ⟨after, never⟩ := coherent.unregister id
      exact ⟨after, valid never⟩
  | checkActivate id policy transition =>
      refine ⟨coherent.checkActivate id policy transition, valid fun d activity bad => ?_⟩
      exact (coherent.checkActivate_error bad).2 d activity rfl
  | reconcile policy kinds =>
      obtain ⟨after, never⟩ := coherent.checkAll policy (r.idsOf kinds)
      exact ⟨after, valid never⟩
  | assign id e loose given =>
      obtain ⟨after, never⟩ := coherent.assign loose id
      exact ⟨after, valid never⟩
  | sendTo kinds bytes => exact ⟨coherent.sendTo kinds bytes, fun _ _ => by simp⟩
  | cleanup => exact ⟨coherent.cleanup, fun _ _ => by simp⟩

theorem tracks_room {table : Table} {watched : List (Int × Flags)} (tracks : table.Tracks watched)
    (room : Option Nat) : ({ table with room } : Table).Tracks watched :=
  ⟨tracks.fits, tracks.same, tracks.distinct⟩

theorem Elapses.coherent {loan' : Option Loan} (elapses : Elapses r r') (coherent : r.Coherent loan)
    (number : loan.map (·.id) = loan'.map (·.id))
    (lent : ∀ e ∈ Loan.endpoints loan', r'.host.IsOpen e ∧ e ∉ r.connections.filterMap endpoint?) :
    r'.Coherent loan' := by
  have connections : r'.connections = r.connections := by rw [elapses.rest]
  have table : r'.table = { r.table with room := r'.table.room } := congrArg Reactor.table elapses.rest
  have counts : r'.counts = r.counts := by rw [elapses.rest]
  have keepers : Loan.keepers loan' r.connections = Loan.keepers loan r.connections := by
    cases loan <;> cases loan' <;> simp_all [Loan.keepers]
  have unique := (List.nodup_append.1 coherent.books.unique).1
  refine ⟨elapses.sound coherent.sound, ⟨?_, ?_, ?_, ?_⟩, ?_, fun kind => ?_⟩
  · rw [table, connections]
    exact tracks_room coherent.books.tracks _
  · rw [connections]
    exact coherent.books.settled
  · rw [connections]
    refine List.nodup_append.2 ⟨unique, ?_, ?_⟩
    · rw [Loan.endpoints]
      cases loan'.bind (·.endpoint) <;> simp
    · rintro e mem e' mem' rfl
      exact (lent e mem').2 mem
  · intro e mem
    rw [connections] at mem
    rcases List.mem_append.1 mem with held | mine
    · exact elapses.kept e held (coherent.books.isOpen e (List.mem_append_left _ held))
    · exact (lent e mine).1
  · rw [connections, keepers]
    exact coherent.present
  · rw [connections, ← coherent.counted, count, counts, count]

theorem Coherent.loose (coherent : r.Coherent loan) {host : Host} {e : Endpoint} (isOpen : host.IsOpen e)
    (new : r.host.next ≤ e.id) : ({ r with host } : Reactor).Loose loan e := by
  refine ⟨isOpen, fun mem => ?_⟩
  have old := coherent.sound.numbers e (coherent.books.isOpen e mem)
  omega

end Reactor

namespace Scene

variable {σ : Type}

def loan (id : Nat) (s : Scene σ) : Loan := ⟨id, s.receiver.endpoint⟩

inductive Step (gives : Nat → Endpoint → Prop) (id : Nat) (s : Scene σ) : Scene σ → Prop
  | operation {error : Option EventError} {reactor : Reactor}
      (operation : Reactor.Operation gives (some (s.loan id)) s.reactor error reactor) :
      Step gives id s { s with reactor }
  | outside {s' : Scene σ} (elapses : Reactor.Elapses s.reactor s'.reactor)
      (isOpen : ∀ e, s'.receiver.endpoint = some e → s'.reactor.host.IsOpen e)
      (given : ∀ e, s'.receiver.endpoint = some e → s.receiver.endpoint = some e ∨
        e ∉ s.reactor.connections.filterMap endpoint? ∧ gives id e) :
      Step gives id s s'

def Coherent (id : Nat) (s : Scene σ) : Prop := s.reactor.Coherent (some (s.loan id))

variable {gives : Nat → Endpoint → Prop} {id : Nat} {s s' : Scene σ}

theorem Step.coherent (step : Step gives id s s') (coherent : s.Coherent id) : s'.Coherent id := by
  cases step with
  | operation operation => exact (operation.coherent coherent).1
  | outside elapses isOpen given =>
      refine elapses.coherent coherent rfl fun e mem => ?_
      have eq : s'.receiver.endpoint = some e := Option.mem_toList.1 mem
      refine ⟨isOpen e eq, ?_⟩
      rcases given e eq with same | ⟨apart, -⟩
      · have unique := List.nodup_append.1 coherent.books.unique
        exact fun held => unique.2.2 e held e (by simp [Loan.endpoints, loan, same]) rfl
      · exact apart

theorem Step.of_grows (coherent : s.Coherent id) {host : Host} (grows : Host.Grows s.reactor.host host) :
    Step gives id s { s with reactor := { s.reactor with host } } := by
  refine .outside ⟨rfl, grows.sound, grows.next_le, fun e _ => grows.kept e, grows.opened⟩ ?_ fun _ => Or.inl
  intro e eq
  refine grows.kept e (coherent.books.isOpen e (List.mem_append_right _ ?_))
  simpa [Loan.endpoints, loan] using eq

theorem steps_coherent (steps : ReflTransGen (Step gives id) s s') (coherent : s.Coherent id) : s'.Coherent id := by
  induction steps with
  | refl => exact coherent
  | tail _ step ih => exact step.coherent ih

end Scene

def Handler.Acts {σ : Type} (gives : Nat → Endpoint → Prop) (handler : Handler σ) : Prop :=
  ∀ id s, Scene.Coherent id s → ReflTransGen (Scene.Step gives id) s ((handler id).run.run s).2

end TraceGate
