import TraceGate.Proofs.Reactor.Orderly

namespace TraceGate

open Connection

namespace Reactor

variable {loan : Option Loan} {r r' : Reactor} {c d : Connection} {policy : KindSet}

theorem take_eq {ids : Ids} (positive : 0 < ids.next) (last : ids.next < idBound) :
    ids.take = (ids.next, ⟨ids.next + 1⟩) := by
  have small := Nat.mod_eq_of_lt last
  rw [Ids.take, small, if_neg (by omega)]

structure Registers (policy : KindSet) (loan : Option Loan) (r : Reactor) (c : Connection)
    (outcome : Except EventError Nat × Reactor) : Prop where
  ok : outcome.1 = .ok r.ids.next
  orderly : outcome.2.Orderly loan
  connections : outcome.2.connections = r.connections ++ [c.follow policy]

theorem Orderly.add (orderly : r.Orderly loan) {e : Endpoint} (loose : r.Loose loan e) {kind : Kind}
    (network : e.kind = .tcpListener → kind = .clientConnect) (wanted : Flags) :
    (({ r with ids := ⟨r.ids.next + 1⟩ } : Reactor).add
      (Connection.new r.ids.next kind (.ofEndpoint e) wanted)).Orderly loan where
  coherent := by
    have numbered : ({ r with ids := ⟨r.ids.next + 1⟩ } : Reactor).Coherent loan :=
      ⟨orderly.coherent.sound, orderly.coherent.books, orderly.coherent.present, orderly.coherent.counted⟩
    refine numbered.add rfl ⟨Or.inl rfl, ?_⟩ rfl ?_
    · rintro _ ⟨⟩
      rfl
    · rintro _ ⟨⟩
      exact loose
  spacious := orderly.spacious
  positive := Nat.succ_pos _
  numbered := by
    have split : (({ r with ids := ⟨r.ids.next + 1⟩ } : Reactor).add
        (Connection.new r.ids.next kind (.ofEndpoint e) wanted)).connections.map (·.id) =
          r.connections.map (·.id) ++ [r.ids.next] := by
      simp [Reactor.add, Connection.new]
    rw [split]
    refine List.nodup_append.2 ⟨orderly.numbered, List.nodup_singleton _, ?_⟩
    rintro id mem _ last rfl
    obtain ⟨d, origin, eq⟩ := List.mem_map.1 mem
    have below := (orderly.regular d origin).below
    rw [eq, List.mem_singleton.1 last] at below
    exact absurd below (Nat.lt_irrefl _)
  regular c mem := by
    rcases List.mem_append.1 mem with old | new
    · have regular := orderly.regular c old
      exact ⟨regular.below.trans (Nat.lt_succ_self _), regular.borrowed, regular.lent, regular.known,
        regular.network⟩
    · obtain rfl := List.mem_singleton.1 new
      have apart : ∀ l, loan = some l → r.ids.next ≠ l.id := fun l lent => (orderly.lender l lent).ne'
      refine ⟨Nat.lt_succ_self _, fun l lent own => absurd own (apart l lent),
        fun l lent own => absurd own (apart l lent), fun _ => rfl, ?_⟩
      rintro _ ⟨⟩
      exact network
  lender l lent := (orderly.lender l lent).trans (Nat.lt_succ_self _)

theorem Orderly.register (orderly : r.Orderly loan) (last : r.ids.next < idBound) {e : Endpoint}
    (loose : r.Loose loan e) {kind : Kind} (network : e.kind = .tcpListener → kind = .clientConnect)
    (policy : KindSet) (wanted : Flags) :
    Registers policy loan r (Connection.new r.ids.next kind (.ofEndpoint e) wanted)
      (r.register policy kind (.ofEndpoint e) wanted) := by
  have added := orderly.add loose network wanted
  generalize named : Connection.new r.ids.next kind (.ofEndpoint e) wanted = c at added
  have mem : c ∈ (({ r with ids := ⟨r.ids.next + 1⟩ } : Reactor).add c).connections :=
    List.mem_append_right _ (List.mem_singleton_self _)
  have number : c.id = r.ids.next := by
    rw [← named]
    rfl
  have away : c.Away loan := fun l lent own => absurd (number ▸ own) (orderly.lender l lent).ne'
  have known : c.fd.isSome := by
    rw [← named]
    rfl
  have follows : Follows policy [c.id] loan _ _ := added.checkActivate away mem fun _ => known
  rw [number] at follows
  unfold Reactor.register
  rw [if_neg (by simp [Receiver.isReleased, Receiver.ofEndpoint]), take_eq orderly.positive last]
  dsimp only
  rw [named]
  split <;> rename_i eq <;> rw [eq] at follows
  · refine ⟨rfl, follows.orderly, ?_⟩
    rw [follows.connections]
    change (r.connections ++ [c]).map _ = _
    rw [List.map_append]
    congr 1
    · refine (List.map_congr_left fun d mem => if_neg ?_).trans (List.map_id _)
      have below := (orderly.regular d mem).below
      simp only [List.mem_singleton]
      omega
    · simp [number]
  · cases follows.ok

theorem Orderly.of_sublist (orderly : r.Orderly loan) (coherent : r'.Coherent loan)
    (custody : Custody (fun _ _ _ => True) r r') (ids : r'.ids = r.ids)
    (sublist : r'.connections.Sublist r.connections) : r'.Orderly loan where
  coherent := coherent
  spacious := custody.room_eq.trans orderly.spacious
  positive := ids ▸ orderly.positive
  numbered := orderly.numbered.sublist (sublist.map _)
  regular c mem := ids ▸ orderly.regular c (sublist.subset mem)
  lender := ids ▸ orderly.lender

theorem deactivate_connections (r : Reactor) (c : Connection) :
    ∃ f : Connection → Connection, (∀ d, (f d).id = d.id ∧ (f d).kind = d.kind ∧ ¬(f d).IsActive) ∧
      (r.deactivate c).connections = updateFirst (·.id == c.id) f r.connections := by
  have start : (r.unwatchOf c).connections = r.connections := by
    unfold unwatchOf
    cases c.fd <;> rfl
  unfold Reactor.deactivate
  dsimp only
  split
  · refine ⟨Connection.shut, fun _ => ⟨rfl, rfl, nofun⟩, ?_⟩
    rw [← start]
    rfl
  · refine ⟨Connection.pause, fun _ => ⟨rfl, rfl, nofun⟩, ?_⟩
    rw [← start]
    rfl

theorem mem_deactivate_of_ne (mem : c ∈ r.connections) (other : c.id ≠ d.id) :
    c ∈ (r.deactivate d).connections := by
  obtain ⟨f, -, connections⟩ := deactivate_connections r d
  rw [connections]
  exact mem_updateFirst_of_not mem (by simpa using other)

theorem mem_activate_of_ne (mem : c ∈ r.connections) (other : c.id ≠ d.id) :
    c ∈ (r.activate d).2.connections := by
  unfold Reactor.activate
  split
  · exact mem
  · split
    · exact mem
    · exact mem_updateFirst_of_not mem (by simpa using other)

theorem Coherent.unregister_connections (coherent : r.Coherent loan) (id : Nat) :
    (r.unregister id).2.connections = r.connections.eraseP (·.id == id) ∧ (r.unregister id).2.ids = r.ids := by
  have ids := checkActivate_ids r id ∅ .deactivate
  unfold Reactor.unregister
  cases found : r.connection? id with
  | none =>
      rw [checkActivate_of_none found]
      exact ⟨(List.eraseP_of_forall_not (List.find?_eq_none.1 found)).symm, rfl⟩
  | some c =>
      obtain rfl : c.id = id := (connection?_split found).1
      obtain ⟨r', c', eq, found', -, -⟩ := coherent.checkActivate_deactivate found
      have erased : r'.connections.eraseP (·.id == c.id) = r.connections.eraseP (·.id == c.id) := by
        rcases coherent.checkActivate_cases found ∅ .deactivate with ⟨-, same⟩ | ⟨-, same⟩ | ⟨⟨-, -, bad⟩, -⟩
        · rw [same] at eq
          cases eq
          rfl
        · rw [same] at eq
          cases eq
          obtain ⟨f, key, connections⟩ := deactivate_connections r c
          rw [connections, eraseP_updateFirst fun d => by rw [(key d).1]]
        · cases bad
      have own := (connection?_split found').1
      rw [eq] at ids ⊢
      dsimp only
      rw [found']
      refine ⟨?_, ids⟩
      change r'.connections.eraseP (fun d => d.id == c'.id) = _
      rw [own]
      exact erased

theorem Orderly.unregister (orderly : r.Orderly loan) (id : Nat) : (r.unregister id).2.Orderly loan ∧
    (r.unregister id).2.connections.Sublist r.connections := by
  obtain ⟨connections, ids⟩ := orderly.coherent.unregister_connections id
  have sublist : (r.unregister id).2.connections.Sublist r.connections := by
    rw [connections]
    exact List.eraseP_sublist
  exact ⟨orderly.of_sublist (orderly.coherent.unregister id).1 (Custody.unregister r id) ids sublist, sublist⟩

theorem Orderly.unregisterAll (ids : List Nat) (orderly : r.Orderly loan) : (r.unregisterAll ids).Orderly loan ∧
    (r.unregisterAll ids).connections.Sublist r.connections := by
  induction ids generalizing r with
  | nil => exact ⟨orderly, List.Sublist.refl _⟩
  | cons id ids ih =>
      obtain ⟨first, sublist⟩ := orderly.unregister id
      obtain ⟨rest, sublist'⟩ := ih first
      exact ⟨rest, sublist'.trans sublist⟩

theorem Orderly.grow (orderly : r.Orderly loan) {host : Host} (grows : Host.Grows r.host host) :
    ({ r with host } : Reactor).Orderly loan :=
  orderly.of_sublist (orderly.coherent.grow grows) (Custody.of_grows grows) rfl (List.Sublist.refl _)

theorem Orderly.sendTo (orderly : r.Orderly loan) (kinds : KindSet) (bytes : Bytes) :
    (r.sendTo kinds bytes).2.Orderly loan ∧ (r.sendTo kinds bytes).2.connections.Sublist r.connections :=
  (orderly.grow (sendEach_grows bytes _ _)).unregisterAll _

theorem Orderly.assign (orderly : r.Orderly loan) (mem : c ∈ r.connections) (listener : c.kind = .clientConnect)
    (vacant : c.fd = none) (away : c.Away loan) {e : Endpoint} (loose : r.Loose loan e) :
    (r.assign c.id e).1 = .ok () ∧ (r.assign c.id e).2.Orderly loan ∧ (r.assign c.id e).2.ids = r.ids ∧
      (r.assign c.id e).2.connections =
        r.connections.map fun d => if d.id = c.id then d.hold (.ofEndpoint e) else d := by
  have idle : ¬c.IsActive := by
    intro active
    obtain ⟨fd, known⟩ := orderly.coherent.known (orderly.connection?_eq mem) active
    rw [vacant] at known
    cases known
  have other : ∀ l, loan = some l → c.id ≠ l.id := fun l lent own => away l lent own listener
  obtain ⟨receiver, held⟩ : ∃ receiver, c.receiver = some receiver := by
    refine Option.isSome_iff_exists.1 (orderly.coherent.present c ?_)
    cases loan with
    | none => exact mem
    | some l => exact (List.mem_eraseP_of_neg (by simpa using other l rfl)).2 mem
  have outcome : r.assign c.id e = (.ok (), ({ r with host := receiver.drop r.host } : Reactor).update c.id
      (·.hold (.ofEndpoint e))) := by
    unfold Reactor.assign
    simp only [orderly.connection?_eq mem, if_neg idle, held]
    rfl
  have connections : updateFirst (·.id == c.id) (·.hold (.ofEndpoint e)) r.connections = _ :=
    updateFirst_eq_map orderly.numbered
  refine ⟨by rw [outcome], ?_, by rw [outcome]; rfl, by rw [outcome]; exact connections⟩
  refine orderly.of_map (orderly.coherent.assign loose c.id).1 orderly.lender
    (Custody.assign r c.id e fun _ _ _ => trivial) (by rw [outcome]; rfl) (by rw [outcome]; exact connections) (fun d => by split <;> rfl) fun d mem' regular => ?_
  split
  · rename_i own
    rw [orderly.eq_of_id mem' mem own] at regular ⊢
    refine ⟨regular.below, fun l lent own => absurd own (other l lent), fun l lent own => absurd own (other l lent),
      fun _ => rfl, fun _ _ _ => listener⟩
  · exact regular

theorem Orderly.lend (orderly : r.Orderly none) (mem : c ∈ r.connections) {receiver : Receiver}
    (held : c.receiver = some receiver) :
    (r.update c.id Connection.lend).Orderly (some ⟨c.id, receiver.endpoint⟩) ∧
      (r.update c.id Connection.lend).connections = r.connections.map fun d => if d.id = c.id then d.lend else d := by
  have connections : (r.update c.id Connection.lend).connections = _ := updateFirst_eq_map orderly.numbered
  have own : c.fd = receiver.fd? := (orderly.coherent.books.settled c mem).fd receiver held
  refine ⟨?_, connections⟩
  refine orderly.of_map (orderly.coherent.lend (orderly.connection?_eq mem) held) ?_ (Custody.lend r c.id) rfl
    connections (fun d => by split <;> rfl) fun d mem' regular => ?_
  · rintro _ ⟨⟩
    exact (orderly.regular c mem).below
  · split
    · rename_i same
      rw [orderly.eq_of_id mem' mem same] at regular ⊢
      refine ⟨regular.below, ?_, ?_, regular.known, fun _ eq => by cases eq⟩
      · rintro _ ⟨⟩ -
        exact own
      · rintro _ ⟨⟩ - e endpoint network
        refine regular.network e ?_ network
        rw [endpoint?_of_receiver held]
        exact endpoint
    · rename_i other
      refine ⟨regular.below, ?_, ?_, regular.known, regular.network⟩
      · rintro _ ⟨⟩ same
        exact absurd same other
      · rintro _ ⟨⟩ same
        exact absurd same other

theorem Orderly.restore {id : Nat} {receiver : Receiver} (orderly : r.Orderly (some ⟨id, receiver.endpoint⟩)) :
    (r.restore id receiver).Orderly none ∧ (r.restore id receiver).ids = r.ids ∧
      (r.restore id receiver).connections =
        r.connections.map fun d => if d.id = id then { d with receiver := some receiver } else d := by
  have borrowed : ∀ d ∈ r.connections, d.id = id → d.fd = receiver.fd? := fun d mem own =>
    (orderly.regular d mem).borrowed _ rfl own
  have outcome : (r.restore id receiver).ids = r.ids ∧ (r.restore id receiver).connections =
      r.connections.map fun d => if d.id = id then { d with receiver := some receiver } else d := by
    unfold Reactor.restore
    split
    · rename_i absent
      refine ⟨rfl, ((List.map_congr_left fun d mem => if_neg ?_).trans (List.map_id _)).symm⟩
      simpa using List.find?_eq_none.1 absent d mem
    · rename_i c found
      obtain ⟨own, -⟩ := connection?_split found
      have same := borrowed c (connection?_mem found) own
      dsimp only
      rw [if_neg fun moved => moved.2 same]
      refine ⟨rfl, (updateFirst_eq_map orderly.numbered).trans (List.map_congr_left fun d mem => ?_)⟩
      split
      · rename_i own
        rw [hold, ← borrowed d mem own]
      · rfl
  refine ⟨?_, outcome⟩
  refine orderly.of_map orderly.coherent.restore (by rintro _ ⟨⟩) (Custody.restore r id receiver fun _ _ _ _ _ => trivial)
    outcome.1 outcome.2 (fun d => by split <;> rfl) fun d mem regular => ?_
  split
  · rename_i own
    exact ⟨regular.below, by rintro _ ⟨⟩, by rintro _ ⟨⟩, regular.known, regular.lent _ rfl own⟩
  · exact ⟨regular.below, by rintro _ ⟨⟩, by rintro _ ⟨⟩, regular.known, regular.network⟩

end Reactor

end TraceGate
