import TraceGate.Proofs.Reactor.Operation

namespace TraceGate

open Connection Relation

/-- From `r` to `r'` connections get only endpoints that are given to their number and kind. -/
structure Custody (given : Nat → Kind → Endpoint → Prop) (r r' : Reactor) : Prop where
  ids_le : r.ids.next ≤ r'.ids.next
  room_eq : r'.table.room = r.table.room
  refusals_le : r.host.refusals ≤ r'.host.refusals
  next_le : r.host.next ≤ r'.host.next
  opened : ∀ e, r'.host.IsOpen e → r.host.IsOpen e ∨ r.host.next ≤ e.id
  held : ∀ c ∈ r'.connections, ∀ e, c.endpoint? = some e →
    (∃ d ∈ r.connections, d.id = c.id ∧ d.kind = c.kind ∧ d.endpoint? = some e) ∨ given c.id c.kind e

namespace Custody

variable {given : Nat → Kind → Endpoint → Prop} {r r' r'' : Reactor} {id : Nat}

theorem refl (r : Reactor) : Custody given r r :=
  ⟨le_rfl, rfl, le_rfl, le_rfl, fun _ => Or.inl, fun c mem _ eq => Or.inl ⟨c, mem, rfl, rfl, eq⟩⟩

theorem trans (first : Custody given r r') (second : Custody given r' r'') : Custody given r r'' where
  ids_le := first.ids_le.trans second.ids_le
  room_eq := second.room_eq.trans first.room_eq
  refusals_le := first.refusals_le.trans second.refusals_le
  next_le := first.next_le.trans second.next_le
  opened e isOpen := by
    rcases second.opened e isOpen with old | new
    · exact first.opened e old
    · exact Or.inr (first.next_le.trans new)
  held c mem e eq := by
    rcases second.held c mem e eq with ⟨d, mem, id, kind, eq⟩ | new
    · have source := first.held d mem e eq
      rwa [id, kind] at source
    · exact Or.inr new

theorem of_grows {host : Host} (grows : Host.Grows r.host host) : Custody given r { r with host } :=
  ⟨le_rfl, rfl, grows.refusals_le, grows.next_le, grows.opened, (refl r).held⟩

theorem of_shrinks {host : Host} (shrinks : Host.Shrinks r.host host) : Custody given r { r with host } :=
  ⟨le_rfl, rfl, shrinks.refusals.ge, shrinks.next_eq.ge,
    fun _ isOpen => Or.inl ((shrinks.endpoints.map _).subset isOpen), (refl r).held⟩

theorem discard (r : Reactor) (receiver : Receiver) : Custody given r (r.discard receiver) :=
  of_shrinks (receiver.drop_shrinks _)

theorem of_connections {connections : List Connection} {table : Table} {counts : Vector Nat 15}
    (room : table.room = r.table.room)
    (held : ∀ c ∈ connections, ∀ e, c.endpoint? = some e →
      (∃ d ∈ r.connections, d.id = c.id ∧ d.kind = c.kind ∧ d.endpoint? = some e) ∨ given c.id c.kind e) :
    Custody given r { host := r.host, table, connections, ids := r.ids, counts } :=
  ⟨le_rfl, room, le_rfl, le_rfl, fun _ => Or.inl, held⟩

theorem take_le (ids : Ids) : ids.next ≤ ids.take.2.next := by
  unfold Ids.take
  split <;> simp

theorem number (r : Reactor) : Custody given r { r with ids := r.ids.take.2 } :=
  ⟨take_le _, rfl, le_rfl, le_rfl, fun _ => Or.inl, (refl r).held⟩

theorem update (r : Reactor) (id : Nat) {f : Connection → Connection} (key : ∀ d, (f d).id = d.id)
    (kind : ∀ d, (f d).kind = d.kind)
    (held : ∀ d ∈ r.connections, d.id = id → ∀ e, (f d).endpoint? = some e →
      d.endpoint? = some e ∨ given id d.kind e) : Custody given r (r.update id f) := by
  apply of_connections rfl
  intro c mem e eq
  rcases mem_updateFirst mem with old | ⟨d, origin, hit, rfl⟩
  · exact Or.inl ⟨c, old, rfl, rfl, eq⟩
  · rcases held d origin (by simpa using hit) e eq with same | new
    · exact Or.inl ⟨d, origin, (key d).symm, (kind d).symm, same⟩
    · rw [key, kind, show d.id = id by simpa using hit]
      exact Or.inr new

theorem unwatch (r : Reactor) (fd : Int) : Custody given r (r.unwatch fd) :=
  of_connections (Table.disable_room _ _) (refl r).held

theorem unwatchOf (r : Reactor) (c : Connection) : Custody given r (r.unwatchOf c) := by
  unfold Reactor.unwatchOf
  split
  · exact unwatch r _
  · exact refl r

theorem shut (r : Reactor) (id : Nat) : Custody given r (r.update id Connection.shut) := by
  refine update r id (fun _ => rfl) (fun _ => rfl) fun d _ _ e eq => ?_
  rw [shut_endpoint?] at eq
  cases eq

theorem pause (r : Reactor) (id : Nat) : Custody given r (r.update id Connection.pause) :=
  update r id (fun _ => rfl) (fun _ => rfl) fun _ _ _ _ eq => Or.inl eq

theorem deactivate (r : Reactor) (c : Connection) : Custody given r (r.deactivate c) := by
  unfold Reactor.deactivate
  dsimp only
  split
  · exact (unwatchOf r c).trans ((discard _ _).trans (shut _ _))
  · exact (unwatchOf r c).trans (pause _ _)

theorem activate (r : Reactor) (c : Connection) : Custody given r (r.activate c).2 := by
  unfold Reactor.activate
  split
  · exact refl r
  · split
    · exact refl r
    · rename_i table enabled
      have watched : Custody given r { r with table } := of_connections (Table.enable_room enabled) (refl r).held
      exact watched.trans (update _ _ (fun _ => rfl) (fun _ => rfl) fun _ _ _ _ eq => Or.inl eq)

theorem checkActivate (r : Reactor) (id : Nat) (policy : KindSet) (transition : Transition) :
    Custody given r (r.checkActivate id policy transition).2 := by
  unfold Reactor.checkActivate
  split
  · exact refl r
  · rename_i c _
    dsimp only
    split
    · dsimp only
      split
      · exact refl r
      · exact deactivate r c
    · split
      · exact activate r c
      · exact refl r
    · exact refl r

theorem checkAll (r : Reactor) (policy : KindSet) (ids : List Nat) : Custody given r (r.checkAll policy ids).2 := by
  induction ids generalizing r with
  | nil => exact refl r
  | cons id ids ih =>
      have step : Custody given r (r.checkActivate id policy .activate).2 := checkActivate r id policy .activate
      unfold Reactor.checkAll
      split <;> rename_i eq <;> rw [eq] at step
      · exact step.trans (ih _)
      · exact step

theorem remove (r : Reactor) (c : Connection) : Custody given r (r.remove c) := by
  refine (discard r (c.receiver.getD .released)).trans (of_connections rfl fun d mem e eq => ?_)
  exact Or.inl ⟨d, List.eraseP_subset mem, rfl, rfl, eq⟩

theorem unregister (r : Reactor) (id : Nat) : Custody given r (r.unregister id).2 := by
  have step : Custody given r (r.checkActivate id ∅ .deactivate).2 := checkActivate r id ∅ .deactivate
  unfold Reactor.unregister
  split <;> rename_i eq <;> rw [eq] at step
  · exact step
  · split
    · exact step
    · exact step.trans (remove _ _)

theorem unregisterAll (r : Reactor) (ids : List Nat) : Custody given r (r.unregisterAll ids) := by
  induction ids generalizing r with
  | nil => exact refl r
  | cons id ids ih => exact (unregister r id).trans (ih _)

theorem add (r : Reactor) (c : Connection) (new : ∀ e, c.endpoint? = some e → given c.id c.kind e) :
    Custody given r (r.add c) := by
  refine of_connections rfl fun d mem e eq => ?_
  rcases List.mem_append.1 mem with old | last
  · exact Or.inl ⟨d, old, rfl, rfl, eq⟩
  · obtain rfl := List.mem_singleton.1 last
    exact Or.inr (new e eq)

theorem register (r : Reactor) (policy : KindSet) (kind : Kind) (receiver : Receiver) (wanted : Flags)
    (new : ∀ e, receiver.endpoint = some e → given r.ids.take.1 kind e) :
    Custody given r (r.register policy kind receiver wanted).2 := by
  unfold Reactor.register
  split
  · exact refl r
  · dsimp only
    have added := (number r).trans (add _ (Connection.new r.ids.take.1 kind receiver wanted) new)
    have step := added.trans (checkActivate _ r.ids.take.1 policy .activate)
    split <;> rename_i eq <;> rw [eq] at step
    · exact step
    · refine step.trans ((discard _ receiver).trans (of_connections rfl fun d mem e eq => ?_))
      exact Or.inl ⟨d, List.dropLast_subset _ mem, rfl, rfl, eq⟩

theorem hold (r : Reactor) (id : Nat) (receiver : Receiver)
    (new : ∀ d ∈ r.connections, d.id = id → ∀ e, receiver.endpoint = some e → given id d.kind e) :
    Custody given r (r.update id (·.hold receiver)) :=
  update r id (fun _ => rfl) (fun _ => rfl) fun d mem same e eq => Or.inr (new d mem same e eq)

theorem assign (r : Reactor) (id : Nat) (e : Endpoint)
    (new : ∀ d ∈ r.connections, d.id = id → given id d.kind e) : Custody given r (r.assign id e).2 := by
  have refused : Custody given r { r with host := r.host.close e } := of_shrinks (Host.close_shrinks _ _)
  unfold Reactor.assign
  dsimp only
  split
  · exact refused
  · split
    · exact refused
    · split
      · exact refused
      · rename_i receiver _
        refine (discard r receiver).trans (hold _ _ _ ?_)
        rintro d mem same _ ⟨⟩
        exact new d mem same

theorem sendTo (r : Reactor) (kinds : KindSet) (bytes : Bytes) : Custody given r (r.sendTo kinds bytes).2 :=
  (of_grows (Reactor.sendEach_grows bytes _ _)).trans (unregisterAll _ _)

theorem cleanup (r : Reactor) : Custody given r r.cleanup := unregisterAll r _

theorem lend (r : Reactor) (id : Nat) : Custody given r (r.update id Connection.lend) :=
  update r id (fun _ => rfl) (fun _ => rfl) fun _ _ _ _ eq => by cases eq

theorem restore (r : Reactor) (id : Nat) (receiver : Receiver)
    (new : ∀ d ∈ r.connections, d.id = id → ∀ e, receiver.endpoint = some e → given id d.kind e) :
    Custody given r (r.restore id receiver) := by
  unfold Reactor.restore
  split
  · exact discard r receiver
  · rename_i c _
    dsimp only
    have back : Custody given r ((r.discardHeld c).update id (·.hold receiver)) :=
      (discard r _).trans (hold _ _ _ new)
    split
    · refine (back.trans (unwatchOf _ c)).trans ?_
      split
      · rename_i table again
        obtain ⟨fd, -, enabled⟩ := Option.bind_eq_some_iff.1 again
        exact of_connections (Table.enable_room (Reactor.toOption_eq_some.1 enabled)) (refl _).held
      · exact pause _ _
    · exact back

end Custody

end TraceGate
