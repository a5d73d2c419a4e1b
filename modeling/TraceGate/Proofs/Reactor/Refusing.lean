import TraceGate.Proofs.Reactor.Numbers
import TraceGate.Proofs.Reactor.Sparing

namespace TraceGate

namespace Reactor

inductive Demand where
  | register (policy : KindSet) (kind : Kind) (receiver : Receiver) (wanted : Flags)
  | unregister (id : Nat)
  | checkActivate (id : Nat) (policy : KindSet) (transition : Transition)
  | assign (id : Nat) (e : Endpoint)
deriving DecidableEq

namespace Demand

def run : Demand → Reactor → Option EventError × Reactor
  | register policy kind receiver wanted, r =>
    (EventError.of? (r.register policy kind receiver wanted).1, (r.register policy kind receiver wanted).2)
  | unregister id, r => (EventError.of? (r.unregister id).1, (r.unregister id).2)
  | checkActivate id policy transition, r =>
    (EventError.of? (r.checkActivate id policy transition).1, (r.checkActivate id policy transition).2)
  | assign id e, r => (EventError.of? (r.assign id e).1, (r.assign id e).2)

def brought : Demand → Receiver
  | register _ _ receiver _ => receiver
  | assign _ e => .ofEndpoint e
  | _ => .released

end Demand

/-- The same connections, each as it was, the same table and the same counts. At most a number has been taken. -/
structure Keeps (r r' : Reactor) : Prop where
  connections : r'.connections = r.connections
  table : r'.table = r.table
  counts : r'.counts = r.counts
  ids : r'.ids = r.ids ∨ r'.ids = r.ids.take.2

variable {r : Reactor} {id : Nat} {error : EventError}

theorem Keeps.refl (r : Reactor) : r.Keeps r := ⟨rfl, rfl, rfl, Or.inl rfl⟩

theorem register_refused {policy : KindSet} {kind : Kind} {receiver : Receiver} {wanted : Flags}
    (failed : (r.register policy kind receiver wanted).1 = .error error) :
    r.Keeps (r.register policy kind receiver wanted).2 ∧
      (r.register policy kind receiver wanted).2.host = receiver.drop r.host := by
  unfold Reactor.register at failed ⊢
  split
  · rename_i released
    have nothing : receiver.endpoint = none := Option.isNone_iff_eq_none.1 released
    exact ⟨Keeps.refl r, by rw [Receiver.drop, nothing]⟩
  · rename_i held
    rw [if_neg held] at failed
    dsimp only at failed ⊢
    split <;> rename_i outcome <;> rw [outcome] at failed
    · cases failed
    · -- what was added comes off again, and the count goes back to what it was
      obtain rfl := (congrArg Prod.snd outcome).symm.trans (checkActivate_of_error (congrArg Prod.fst outcome))
      have withdrawn := withdraw_add { r with ids := r.ids.take.2 } (.new r.ids.take.1 kind receiver wanted) receiver
      rw [show (Connection.new r.ids.take.1 kind receiver wanted).kind = kind from rfl] at withdrawn
      rw [withdrawn]
      exact ⟨⟨rfl, rfl, rfl, Or.inr rfl⟩, rfl⟩

theorem unregister_refused (failed : (r.unregister id).1 = .error error) : (r.unregister id).2 = r := by
  cases present : r.connection? id with
  | none =>
      unfold Reactor.unregister
      rw [checkActivate_of_none present]
  | some c =>
      have listed : id ∈ r.keys.map Prod.fst := by
        rw [map_fst_keys]
        exact List.mem_map.2 ⟨c, connection?_mem present, (connection?_split present).1⟩
      rw [← checkActivate_keys r id ∅ .deactivate] at listed
      obtain ⟨c', found⟩ := exists_connection? listed
      unfold Reactor.unregister at failed ⊢
      split <;> rename_i outcome <;> rw [outcome] at found failed
      · exact (congrArg Prod.snd outcome).symm.trans (checkActivate_of_error (congrArg Prod.fst outcome))
      · dsimp only at found failed
        rw [found] at failed
        cases failed

theorem assign_refused {e : Endpoint} (failed : (r.assign id e).1 = .error error) :
    (r.assign id e).2 = { r with host := r.host.close e } := by
  unfold Reactor.assign at failed ⊢
  dsimp only at failed ⊢
  split
  · rfl
  · rename_i c found
    rw [found] at failed
    dsimp only at failed
    split
    · rfl
    · rename_i idle
      rw [if_neg idle] at failed
      split
      · rfl
      · rename_i receiver held
        rw [held] at failed
        cases failed

/-- A demand that is refused leaves the connections, the table and the counts, and what it brought is closed. -/
theorem refused_keeps (demand : Demand) (r : Reactor) (failed : (demand.run r).1 = some error) :
    r.Keeps (demand.run r).2 ∧ (demand.run r).2.host = demand.brought.drop r.host := by
  cases demand with
  | register policy kind receiver wanted => exact register_refused (EventError.of?_eq_some.1 failed)
  | unregister id =>
      have same : (r.unregister id).2 = r := unregister_refused (EventError.of?_eq_some.1 failed)
      rw [Demand.run, same]
      exact ⟨Keeps.refl r, rfl⟩
  | checkActivate id policy transition =>
      have same : (r.checkActivate id policy transition).2 = r :=
        checkActivate_of_error (EventError.of?_eq_some.1 failed)
      rw [Demand.run, same]
      exact ⟨Keeps.refl r, rfl⟩
  | assign id e =>
      have closed : (r.assign id e).2 = { r with host := r.host.close e } :=
        assign_refused (EventError.of?_eq_some.1 failed)
      rw [Demand.run, closed]
      exact ⟨⟨rfl, rfl, rfl, Or.inl rfl⟩, rfl⟩

end Reactor

namespace Clashing

open Reactor

def file (h : Host) : Endpoint × Host := h.openEndpoint .file (.file 0 0)

def first : Endpoint × Host := file {}

def second : Endpoint × Host := file first.2

def settled : Reactor :=
  (((({ host := second.2 } : Reactor).register .all .gateway (.ofEndpoint first.1) Flags.input).2).register ∅ .filterBackend
    (.ofEndpoint second.1) Flags.input).2

def third : Endpoint × Host := file (second.2.close first.1)

def moment : Reactor := { settled with host := third.2 }.update 1 Connection.lend

def refused : List (Reactor × Demand × EventError) :=
  [(moment, .register .all .gateway (.ofEndpoint third.1) Flags.input, .invalidParameter (.alreadyPolled 3)),
    (moment, .register .all .gateway .released Flags.input, .invalidParameter (.noEndpoint .gateway)),
    (moment, .unregister 7, .connectionNotFound 7),
    (moment, .assign 1 third.1, .invalidParameter (.isActive 1)),
    ((moment.checkActivate 1 ∅ .activate).2, .assign 1 third.1, .invalidParameter (.inDispatch 1)),
    ((moment.assign 2 third.1).2, .checkActivate 2 .all .activate, .invalidParameter (.alreadyPolled 3))]

theorem clashing_keeps : refused.Forall fun p => (p.2.1.run p.1).1 = some p.2.2 ∧ p.1.Keeps (p.2.1.run p.1).2 ∧
    (p.2.1.run p.1).2.host = p.2.1.brought.drop p.1.host := by
  have failed : refused.Forall fun p => (p.2.1.run p.1).1 = some p.2.2 := by decide
  exact failed.imp fun p failed => ⟨failed, refused_keeps p.2.1 p.1 failed⟩

end Clashing

end TraceGate
