import TraceGate.Proofs.Host.Addresses
import TraceGate.Proofs.Reactor.Kindred

namespace TraceGate

open Connection Relation

def Connection.Holds (loan : Option Loan) (c : Connection) (e : Endpoint) : Prop :=
  c.endpoint? = some e ∨ ∃ l, loan = some l ∧ l.id = c.id ∧ l.endpoint = some e

namespace Reactor

variable {loan loan' : Option Loan} {r r' : Reactor} {c : Connection}

theorem discard_shrinks (r : Reactor) (receiver : Receiver) : Host.Shrinks r.host (r.discard receiver).host :=
  receiver.drop_shrinks _

theorem unwatchOf_host (r : Reactor) (c : Connection) : (r.unwatchOf c).host = r.host := by
  unfold unwatchOf
  cases c.fd <;> rfl

theorem deactivate_shrinks (r : Reactor) (c : Connection) : Host.Shrinks r.host (r.deactivate c).host := by
  have same := unwatchOf_host r c
  unfold deactivate
  dsimp only
  split
  · exact same ▸ discard_shrinks (r.unwatchOf c) _
  · exact same ▸ .refl _

theorem activate_host (r : Reactor) (c : Connection) : (r.activate c).2.host = r.host := by
  unfold activate
  split
  · rfl
  · split <;> rfl

theorem checkActivate_shrinks (r : Reactor) (id : Nat) (policy : KindSet) (transition : Transition) :
    Host.Shrinks r.host (r.checkActivate id policy transition).2.host := by
  unfold Reactor.checkActivate
  split
  · exact .refl _
  · rename_i c _
    dsimp only
    split
    · dsimp only
      split
      · exact .refl _
      · exact deactivate_shrinks r c
    · split
      · exact activate_host r c ▸ .refl _
      · exact .refl _
    · exact .refl _

theorem checkAll_shrinks (r : Reactor) (policy : KindSet) (ids : List Nat) :
    Host.Shrinks r.host (r.checkAll policy ids).2.host := by
  induction ids generalizing r with
  | nil => exact .refl _
  | cons id ids ih =>
      have step := checkActivate_shrinks r id policy .activate
      unfold Reactor.checkAll
      split <;> rename_i eq <;> rw [eq] at step
      · exact step.trans (ih _)
      · exact step

theorem unregister_shrinks (r : Reactor) (id : Nat) : Host.Shrinks r.host (r.unregister id).2.host := by
  have step := checkActivate_shrinks r id ∅ .deactivate
  unfold Reactor.unregister
  split <;> rename_i eq <;> rw [eq] at step
  · exact step
  · split
    · exact step
    · exact step.trans (discard_shrinks _ _)

theorem unregisterAll_shrinks (r : Reactor) (ids : List Nat) : Host.Shrinks r.host (r.unregisterAll ids).host := by
  induction ids generalizing r with
  | nil => exact .refl _
  | cons id ids ih => exact (unregister_shrinks r id).trans (ih _)

theorem register_shrinks (r : Reactor) (policy : KindSet) (kind : Kind) (receiver : Receiver) (wanted : Flags) :
    Host.Shrinks r.host (r.register policy kind receiver wanted).2.host := by
  unfold Reactor.register
  split
  · exact .refl _
  · dsimp only
    have step := checkActivate_shrinks
      (({ r with ids := r.ids.take.2 } : Reactor).add (.new r.ids.take.1 kind receiver wanted)) r.ids.take.1 policy .activate
    split <;> rename_i eq <;> rw [eq] at step
    · exact step
    · exact step.trans (discard_shrinks _ receiver)

theorem assign_shrinks (r : Reactor) (id : Nat) (e : Endpoint) : Host.Shrinks r.host (r.assign id e).2.host := by
  unfold Reactor.assign
  dsimp only
  split
  · exact Host.close_shrinks _ _
  · split
    · exact Host.close_shrinks _ _
    · split
      · exact Host.close_shrinks _ _
      · rename_i receiver _
        exact discard_shrinks r receiver

theorem restore_shrinks (r : Reactor) (id : Nat) (receiver : Receiver) :
    Host.Shrinks r.host (r.restore id receiver).host := by
  unfold Reactor.restore
  split
  · exact discard_shrinks r receiver
  · rename_i c _
    have dropped := discard_shrinks r (c.receiver.getD .released)
    dsimp only
    split
    · have same := unwatchOf_host ((r.discardHeld c).update id (·.hold receiver)) c
      split <;> exact same ▸ dropped
    · exact dropped

theorem sendTo_retains (r : Reactor) (kinds : KindSet) (bytes : Bytes) :
    Host.Retains r.host (r.sendTo kinds bytes).2.host :=
  (Host.Retains.of_grows (still_sendEach bytes _ _).grows (still_sendEach bytes _ _).houses).trans
    (unregisterAll_shrinks { r with host := _ } _).retains

/-- From `r` to `r'` no connection has become a client listener, and those that are one hold only what they held, at
the same addresses, or what is given to their number. -/
structure Passes (given : Nat → Endpoint → Prop) (loan loan' : Option Loan) (r r' : Reactor) : Prop where
  next_le : r.ids.next ≤ r'.ids.next
  keys : ∀ key ∈ r'.keys, key ∈ r.keys ∨ r.ids.next ≤ key.1 ∧ key.2 ≠ .clientConnect
  held : ∀ c ∈ r'.connections, c.kind = .clientConnect → ∀ e, c.Holds loan' e → given c.id e ∨
    ∃ b ∈ r.connections, b.key = c.key ∧ b.Holds loan e ∧
      ∀ address, r.host.address? e = some address → r'.host.address? e = some address

variable {given : Nat → Endpoint → Prop}

theorem mem_keys {key : Nat × Kind} : key ∈ r.keys ↔ ∃ c ∈ r.connections, c.key = key := List.mem_map

theorem isOpen_of_holds (coherent : r.Coherent loan) (mem : c ∈ r.connections) {e : Endpoint} (holds : c.Holds loan e) :
    r.host.IsOpen e := by
  rcases holds with own | ⟨l, lent, -, own⟩
  · exact coherent.books.isOpen e (List.mem_append_left _ (List.mem_filterMap.2 ⟨c, mem, own⟩))
  · exact coherent.books.isOpen e (List.mem_append_right _ (by simp [Loan.endpoints, lent, own]))

theorem Passes.of_custody (coherent : r.Coherent loan) (coherent' : r'.Coherent loan)
    (custody : Custody (fun id kind e => kind = .clientConnect → given id e) r r') (retains : Host.Retains r.host r'.host)
    (keys : ∀ key ∈ r'.keys, key ∈ r.keys ∨ r.ids.next ≤ key.1 ∧ key.2 ≠ .clientConnect) : Passes given loan loan r r' where
  next_le := custody.ids_le
  keys := keys
  held c mem listener e holds := by
    have still : ∀ address, r.host.address? e = some address → r'.host.address? e = some address :=
      fun _ listens => retains.listens coherent.sound listens (isOpen_of_holds coherent' mem holds)
    rcases holds with own | ⟨l, lent, number, own⟩
    · rcases custody.held c mem e own with ⟨b, origin, id, kind, before⟩ | new
      · exact Or.inr ⟨b, origin, Prod.ext id kind, Or.inl before, still⟩
      · exact Or.inl (new listener)
    · have known := (keys c.key (mem_keys.2 ⟨c, mem, rfl⟩)).resolve_right fun new => new.2 listener
      obtain ⟨b, origin, same⟩ := mem_keys.1 known
      exact Or.inr ⟨b, origin, same, Or.inr ⟨l, lent, number.trans (congrArg Prod.fst same).symm, own⟩, still⟩

theorem Passes.of_connections (next_le : r.ids.next ≤ r'.ids.next) (connections : r'.connections = r.connections)
    (same : ∀ e, (∃ c ∈ r.connections, c.Holds loan e) → ∀ address, r.host.address? e = some address →
      r'.host.address? e = some address) : Passes given loan loan r r' where
  next_le := next_le
  keys key mem := Or.inl (by rwa [Reactor.keys, connections] at mem)
  held c mem _ e holds := by
    rw [connections] at mem
    exact Or.inr ⟨c, mem, rfl, holds, same e ⟨c, mem, holds⟩⟩

theorem Passes.of_shrinks (coherent : r.Coherent loan) (coherent' : r'.Coherent loan)
    (custody : Custody (fun id kind e => kind = .clientConnect → given id e) r r') (shrinks : Host.Shrinks r.host r'.host)
    (keys : r'.keys ⊆ r.keys) : Passes given loan loan r r' :=
  .of_custody coherent coherent' custody shrinks.retains fun _ mem => Or.inl (keys mem)

theorem Coherent.passes_unregister (coherent : r.Coherent loan) (id : Nat) : Passes given loan loan r (r.unregister id).2 :=
  .of_shrinks coherent (coherent.unregister id).1 (.unregister r id) (unregister_shrinks r id)
    ((coherent.unregister_keys id).1 ▸ List.eraseP_subset)

theorem Coherent.passes_checkAll (coherent : r.Coherent loan) (policy : KindSet) (ids : List Nat) :
    Passes given loan loan r (r.checkAll policy ids).2 :=
  .of_shrinks coherent (coherent.checkAll policy ids).1 (.checkAll r policy ids) (checkAll_shrinks r policy ids)
    ((checkAll_keys policy ids r).1 ▸ List.Subset.refl _)

theorem Coherent.passes_sendTo (coherent : r.Coherent loan) (kinds : KindSet) (bytes : Bytes) :
    Passes given loan loan r (r.sendTo kinds bytes).2 :=
  .of_custody coherent (coherent.sendTo kinds bytes) (.sendTo r kinds bytes) (sendTo_retains r kinds bytes)
    fun _ mem => Or.inl ((strike_sublist _ _).subset (coherent.sendTo_keys kinds bytes ▸ mem))

theorem Coherent.passes_register (coherent : r.Coherent loan) (positive : 0 < r.ids.next) (last : r.ids.next < idBound)
    {e : Endpoint} (loose : r.Loose loan e) {kind : Kind} (other : kind ≠ .clientConnect) (policy : KindSet)
    (wanted : Flags) : Passes given loan loan r (r.register policy kind (.ofEndpoint e) wanted).2 := by
  have own : ∀ e', (Receiver.ofEndpoint e).endpoint = some e' → r.Loose loan e' := by
    rintro _ ⟨⟩
    exact loose
  refine .of_custody coherent (coherent.register own policy kind wanted).1
    (.register r policy kind _ wanted fun _ _ listener => absurd listener other) (register_shrinks r policy kind _ wanted).retains fun key mem => ?_
  rcases mem_register_keys mem with old | new
  · exact Or.inl old
  · rw [new, take_eq positive last]
    exact Or.inr ⟨le_rfl, other⟩

theorem passes_lend (numbered : (r.connections.map (·.id)).Nodup) (found : r.connection? c.id = some c)
    {receiver : Receiver} (held : c.receiver = some receiver) :
    Passes given none (some ⟨c.id, receiver.endpoint⟩) r (r.update c.id Connection.lend) where
  next_le := le_rfl
  keys key mem := Or.inl (update_keys Connection.lend (fun _ => rfl) r c.id ▸ mem)
  held d mem _ e holds := by
    rcases holds with own | ⟨l, lent, number, own⟩
    · have custody : Custody (fun _ _ _ => False) r (r.update c.id Connection.lend) := .lend r c.id
      obtain ⟨b, origin, number, kind, before⟩ := (custody.held d mem e own).resolve_right id
      exact Or.inr ⟨b, origin, Prod.ext number kind, Or.inl before, fun _ => id⟩
    · cases lent
      have known : d.key ∈ r.keys := update_keys Connection.lend (fun _ => rfl) r c.id ▸ mem_keys.2 ⟨d, mem, rfl⟩
      obtain ⟨b, origin, same⟩ := mem_keys.1 known
      obtain rfl : b = c := List.inj_on_of_nodup_map numbered origin (connection?_mem found)
        ((congrArg Prod.fst same).trans number.symm)
      exact Or.inr ⟨b, origin, same, Or.inl ((endpoint?_of_receiver held).trans own), fun _ => id⟩

theorem Coherent.passes_restore {id : Nat} {receiver : Receiver}
    (coherent : r.Coherent (some ⟨id, receiver.endpoint⟩)) :
    Passes given (some ⟨id, receiver.endpoint⟩) none r (r.restore id receiver) where
  next_le := (congrArg Ids.next (restore_keys r id receiver).2).ge
  keys key mem := Or.inl ((restore_keys r id receiver).1 ▸ mem)
  held c mem _ e holds := by
    have own : c.endpoint? = some e := holds.resolve_right fun ⟨l, lent, _⟩ => by cases lent
    have isOpen := coherent.restore.books.isOpen e (List.mem_append_left _ (List.mem_filterMap.2 ⟨c, mem, own⟩))
    have still : ∀ address, r.host.address? e = some address → (r.restore id receiver).host.address? e = some address :=
      fun address listens => (restore_shrinks r id receiver).retains.listens coherent.sound listens isOpen
    have custody : Custody (fun i _ e => i = id ∧ receiver.endpoint = some e) r (r.restore id receiver) :=
      .restore r id receiver fun _ _ _ _ given => ⟨rfl, given⟩
    rcases custody.held c mem e own with ⟨b, origin, number, kind, before⟩ | ⟨number, given⟩
    · exact Or.inr ⟨b, origin, Prod.ext number kind, Or.inl before, still⟩
    · have known : c.key ∈ r.keys := (restore_keys r id receiver).1 ▸ mem_keys.2 ⟨c, mem, rfl⟩
      obtain ⟨b, origin, same⟩ := mem_keys.1 known
      exact Or.inr ⟨b, origin, same, Or.inr ⟨_, rfl, number.symm.trans (congrArg Prod.fst same).symm, given⟩, still⟩

end Reactor

end TraceGate
