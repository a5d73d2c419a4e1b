import TraceGate.Proofs.Reactor.Custody
import TraceGate.Proofs.Reactor.Follow

namespace TraceGate

open Connection

namespace Reactor

structure Orderly (loan : Option Loan) (r : Reactor) : Prop where
  coherent : r.Coherent loan
  spacious : r.table.room = none
  positive : 0 < r.ids.next
  numbered : (r.connections.map (·.id)).Nodup
  regular : ∀ c ∈ r.connections, c.Regular loan r.ids.next
  lender : ∀ l, loan = some l → l.id < r.ids.next

variable {loan : Option Loan} {r r' : Reactor} {c d : Connection} {policy : KindSet}

theorem Orderly.eq_of_id (orderly : r.Orderly loan) (hc : c ∈ r.connections) (hd : d ∈ r.connections)
    (same : c.id = d.id) : c = d :=
  List.inj_on_of_nodup_map orderly.numbered hc hd same

theorem Orderly.connection?_eq (orderly : r.Orderly loan) (mem : c ∈ r.connections) :
    r.connection? c.id = some c := by
  cases found : r.connection? c.id with
  | none =>
      have absent := List.find?_eq_none.1 found c mem
      simp at absent
  | some d =>
      have same := (connection?_split found).1
      rw [orderly.eq_of_id (connection?_mem found) mem same]

theorem Orderly.owner (orderly : r.Orderly loan) (mem : c ∈ r.connections) {n : Nat} (fd : c.fd = some n) :
    ∃ e, e.fd = n ∧ r.host.IsOpen e ∧
      (c.endpoint? = some e ∨ ∃ l, loan = some l ∧ c.id = l.id ∧ l.endpoint = some e) := by
  have settled := orderly.coherent.books.settled c mem
  have isOpen := orderly.coherent.books.isOpen
  by_cases held : c.receiver.isSome
  · have own := settled.fd_eq held
    rw [fd] at own
    obtain ⟨e, holds, same⟩ := Option.map_eq_some_iff.1 own.symm
    refine ⟨e, same, isOpen e (List.mem_append_left _ ?_), Or.inl holds⟩
    exact List.mem_filterMap.2 ⟨c, mem, holds⟩
  · cases loan with
    | none => exact absurd (orderly.coherent.present c mem) held
    | some l =>
        have lender : c.id = l.id := by
          by_contra other
          refine held (orderly.coherent.present c ?_)
          exact (List.mem_eraseP_of_neg (by simpa using other)).2 mem
        have own := (orderly.regular c mem).borrowed l rfl lender
        rw [fd] at own
        obtain ⟨e, lent, same⟩ := Option.map_eq_some_iff.1 own.symm
        refine ⟨e, same, isOpen e (List.mem_append_right _ ?_), Or.inr ⟨l, rfl, lender, lent⟩⟩
        simp [Loan.endpoints, lent]

theorem Orderly.eq_of_fd (orderly : r.Orderly loan) (hc : c ∈ r.connections) (hd : d ∈ r.connections) {n : Nat}
    (fc : c.fd = some n) (fd : d.fd = some n) : c = d := by
  obtain ⟨e, numberC, openC, ownerC⟩ := orderly.owner hc fc
  obtain ⟨e', numberD, openD, ownerD⟩ := orderly.owner hd fd
  obtain rfl : e = e' := orderly.coherent.sound.eq_of_fd openC openD (numberC.trans numberD.symm)
  have unique := List.nodup_append.1 orderly.coherent.books.unique
  have apart : ∀ b ∈ r.connections, b.endpoint? = some e → ∀ l, loan = some l → l.endpoint ≠ some e := by
    rintro b mem holds l rfl lent
    exact unique.2.2 e (List.mem_filterMap.2 ⟨b, mem, holds⟩) e (by simp [Loan.endpoints, lent]) rfl
  rcases ownerC with holdsC | ⟨l, lent, idC, endpoint⟩ <;> rcases ownerD with holdsD | ⟨l', lent', idD, endpoint'⟩
  · exact eq_of_filterMap_nodup unique.1 hc hd holdsC holdsD
  · exact absurd endpoint' (apart c hc holdsC l' lent')
  · exact absurd endpoint (apart d hd holdsD l lent)
  · rw [lent] at lent'
    cases lent'
    exact orderly.eq_of_id hc hd (idC.trans idD.symm)

theorem Orderly.not_contains (orderly : r.Orderly loan) (mem : c ∈ r.connections) (idle : ¬c.IsActive) {n : Nat}
    (fd : c.fd = some n) : r.table.contains n = false := by
  rw [← Bool.not_eq_true, orderly.coherent.books.tracks.contains_iff]
  intro watched
  obtain ⟨⟨number, wanted⟩, mem', eq⟩ := List.mem_map.1 watched
  obtain ⟨d, origin, watch⟩ := List.mem_filterMap.1 mem'
  unfold watch? at watch
  split at watch
  · rename_i active
    obtain ⟨m, known, pair⟩ := Option.map_eq_some_iff.1 watch
    cases pair
    have same : m = n := Int.ofNat.inj eq
    exact idle (orderly.eq_of_fd mem origin fd (same ▸ known) ▸ active)
  · cases watch

theorem Orderly.of_map {loan' : Option Loan} (orderly : r.Orderly loan) {f : Connection → Connection}
    (coherent : r'.Coherent loan') (lender : ∀ l, loan' = some l → l.id < r.ids.next)
    (custody : Custody (fun _ _ _ => True) r r') (ids : r'.ids = r.ids)
    (connections : r'.connections = r.connections.map f) (key : ∀ c, (f c).id = c.id)
    (regular : ∀ c ∈ r.connections, c.Regular loan r.ids.next → (f c).Regular loan' r.ids.next) :
    r'.Orderly loan' where
  coherent := coherent
  spacious := custody.room_eq.trans orderly.spacious
  positive := ids ▸ orderly.positive
  numbered := by
    have same : (r.connections.map f).map (·.id) = r.connections.map (·.id) := by
      rw [List.map_map]
      exact List.map_congr_left fun c _ => key c
    rw [connections, same]
    exact orderly.numbered
  regular c mem := by
    rw [connections] at mem
    obtain ⟨d, origin, rfl⟩ := List.mem_map.1 mem
    rw [ids]
    exact regular d origin (orderly.regular d origin)
  lender := ids ▸ lender

structure Follows (policy : KindSet) (ids : List Nat) (loan : Option Loan) (r : Reactor)
    (outcome : Except EventError Unit × Reactor) : Prop where
  ok : outcome.1 = .ok ()
  orderly : outcome.2.Orderly loan
  ids_eq : outcome.2.ids = r.ids
  refusals_le : r.host.refusals ≤ outcome.2.host.refusals
  connections : outcome.2.connections = r.connections.map fun c => if c.id ∈ ids then c.follow policy else c

theorem checkActivate_ids (r : Reactor) (id : Nat) (policy : KindSet) (transition : Transition) :
    (r.checkActivate id policy transition).2.ids = r.ids := by
  have off : ∀ c, (r.deactivate c).ids = r.ids := by
    intro c
    unfold deactivate unwatchOf
    cases c.fd <;> dsimp only <;> split <;> rfl
  have on : ∀ c, (r.activate c).2.ids = r.ids := by
    intro c
    unfold activate
    split
    · rfl
    · split <;> rfl
  unfold Reactor.checkActivate
  split
  · rfl
  · dsimp only
    split
    · split
      · rfl
      · exact off _
    · split
      · exact on _
      · rfl
    · rfl

theorem Orderly.map_first (orderly : r.Orderly loan) (mem : c ∈ r.connections) {f : Connection → Connection}
    (same : f c = c.follow policy) :
    updateFirst (·.id == c.id) f r.connections =
      r.connections.map fun d => if d.id ∈ [c.id] then d.follow policy else d := by
  rw [updateFirst_eq_map orderly.numbered]
  refine List.map_congr_left fun d mem' => ?_
  simp only [List.mem_singleton]
  by_cases own : d.id = c.id
  · rw [orderly.eq_of_id mem' mem own, if_pos rfl, if_pos rfl, same]
  · rw [if_neg own, if_neg own]

theorem Orderly.checkActivate_connections (orderly : r.Orderly loan) (mem : c ∈ r.connections)
    (ready : c.kind ∈ policy → c.fd.isSome) : (r.checkActivate c.id policy .activate).1 = .ok () ∧
      (r.checkActivate c.id policy .activate).2.connections =
        r.connections.map fun d => if d.id ∈ [c.id] then d.follow policy else d := by
  rcases orderly.coherent.checkActivate_cases (orderly.connection?_eq mem) policy .activate with
    ⟨already, eq⟩ | ⟨⟨active, unwanted⟩, eq⟩ | ⟨⟨inactive, wanted, -⟩, eq⟩ <;> rw [eq]
  · refine ⟨rfl, ?_⟩
    rw [← orderly.map_first mem (f := id) (follow_eq_self (by simpa using already)).symm,
      updateFirst_eq_map orderly.numbered]
    simp
  · refine ⟨rfl, ?_⟩
    have forbidden : c.kind ∉ policy := fun allowed => unwanted ⟨allowed, rfl⟩
    have start : (r.unwatchOf c).connections = r.connections := by
      unfold unwatchOf
      cases c.fd <;> rfl
    unfold Reactor.deactivate
    dsimp only
    split <;> rename_i listener
    · rw [← orderly.map_first mem (f := Connection.shut), ← start]
      · rfl
      · rw [follow, if_neg forbidden, if_pos active, if_pos listener]
    · rw [← orderly.map_first mem (f := Connection.pause), ← start]
      · rfl
      · rw [follow, if_neg forbidden, if_pos active, if_neg listener]
  · obtain ⟨n, known⟩ := Option.isSome_iff_exists.1 (ready wanted)
    have idle : ¬c.IsActive := by
      rw [IsActive, inactive]
      decide
    have absent := orderly.not_contains mem idle known
    obtain ⟨table, enabled⟩ : ∃ table, r.table.enable n c.wanted = .ok table :=
      Table.enable_isOk orderly.spacious (Int.natCast_nonneg n) absent
    unfold Reactor.activate
    simp only [known, enabled]
    refine ⟨trivial, ?_⟩
    rw [← orderly.map_first mem (f := Connection.start)]
    · rfl
    · rw [follow, if_pos wanted]

theorem Orderly.checkActivate (orderly : r.Orderly loan) (away : c.Away loan)
    (mem : c ∈ r.connections) (ready : c.kind ∈ policy → c.fd.isSome) :
    Follows policy [c.id] loan r (r.checkActivate c.id policy .activate) := by
  have found := orderly.connection?_eq mem
  have coherent := orderly.coherent.checkActivate c.id policy .activate
  have custody : Custody (fun _ _ _ => True) r (r.checkActivate c.id policy .activate).2 :=
    Custody.checkActivate r c.id policy .activate
  have ids := checkActivate_ids r c.id policy .activate
  have connections := orderly.checkActivate_connections mem ready
  refine ⟨connections.1, ?_, ids, custody.refusals_le, connections.2⟩
  refine orderly.of_map coherent orderly.lender custody ids connections.2 (fun d => ?_) fun d mem' regular => ?_
  · split
    · exact follow_id
    · rfl
  · split
    · rename_i own
      rw [orderly.eq_of_id mem' mem (List.mem_singleton.1 own)] at regular ⊢
      exact regular.follow away
    · exact regular

theorem Orderly.checkAll (ids : List Nat) (orderly : r.Orderly loan) (away : ∀ c ∈ r.connections, c.Away loan)
    (distinct : ids.Nodup) (present : ∀ id ∈ ids, ∃ c ∈ r.connections, c.id = id)
    (ready : ∀ c ∈ r.connections, c.kind ∈ policy → c.fd.isSome) :
    Follows policy ids loan r (r.checkAll policy ids) := by
  induction ids generalizing r with
  | nil => exact ⟨rfl, orderly, rfl, le_rfl, by simp [Reactor.checkAll]⟩
  | cons id ids ih =>
      obtain ⟨c, mem, rfl⟩ := present id List.mem_cons_self
      have first := orderly.checkActivate (away c mem) mem (ready c mem)
      obtain ⟨apart, distinct⟩ := List.nodup_cons.1 distinct
      unfold Reactor.checkAll
      split <;> rename_i outcome eq <;> rw [eq] at first
      · -- Each connection has its number and its kind still, and its descriptor if the policy allows it.
        have later : ∀ d ∈ outcome.connections, ∃ b ∈ r.connections, d.id = b.id ∧ d.kind = b.kind ∧
            (b.kind ∈ policy → d.fd = b.fd) := by
          intro d mem
          rw [first.connections] at mem
          obtain ⟨b, origin, rfl⟩ := List.mem_map.1 mem
          refine ⟨b, origin, ?_⟩
          split
          · exact ⟨follow_id, follow_kind, fun allowed => follow_fd fun _ => allowed⟩
          · exact ⟨rfl, rfl, fun _ => rfl⟩
        have rest := ih first.orderly ?_ distinct ?_ ?_
        · refine ⟨rest.ok, rest.orderly, rest.ids_eq.trans first.ids_eq,
            first.refusals_le.trans rest.refusals_le, ?_⟩
          rw [rest.connections, first.connections, List.map_map]
          refine List.map_congr_left fun d mem => ?_
          simp only [Function.comp, List.mem_cons]
          by_cases own : d.id = c.id
          · simp [own, apart]
          · simp [own]
        · intro d mem l lent own
          obtain ⟨b, origin, id, kind, -⟩ := later d mem
          rw [kind]
          exact away b origin l lent (id ▸ own)
        · intro id mem
          obtain ⟨b, origin, rfl⟩ := present id (List.mem_cons_of_mem _ mem)
          rw [first.connections]
          refine ⟨_, List.mem_map_of_mem origin, ?_⟩
          split
          · exact follow_id
          · rfl
        · intro d mem allowed
          obtain ⟨b, origin, -, kind, fd⟩ := later d mem
          rw [kind] at allowed
          rw [fd allowed]
          exact ready b origin allowed
      · cases first.ok

theorem Orderly.reconcile (orderly : r.Orderly loan) (away : ∀ c ∈ r.connections, c.Away loan)
    (ready : ∀ c ∈ r.connections, c.kind ∈ policy → c.fd.isSome) :
    (r.reconcile policy .all).1 = .ok () ∧ (r.reconcile policy .all).2.Orderly loan ∧
      (r.reconcile policy .all).2.ids = r.ids ∧
      r.host.refusals ≤ (r.reconcile policy .all).2.host.refusals ∧
      (r.reconcile policy .all).2.connections = r.connections.map (Connection.follow policy) := by
  have ids : r.idsOf .all = r.connections.map (·.id) := by simp [idsOf]
  unfold Reactor.reconcile
  rw [ids]
  have follows : Follows policy (r.connections.map (·.id)) loan r (r.checkAll policy (r.connections.map (·.id))) :=
    orderly.checkAll _ away orderly.numbered (fun id mem => by simpa using mem) ready
  refine ⟨follows.ok, follows.orderly, follows.ids_eq, follows.refusals_le, ?_⟩
  rw [follows.connections]
  exact List.map_congr_left fun c mem => if_pos (List.mem_map_of_mem mem)

end Reactor

end TraceGate
