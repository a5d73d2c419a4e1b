import TraceGate.Proofs.Daemon.History
import TraceGate.Proofs.Daemon.Listeners

namespace TraceGate

open Connection

namespace Reactor

variable {loan : Option Loan} {r : Reactor} {c : Connection} {policy : KindSet}

theorem start_eq_self (active : c.IsActive) : c.start = c := by
  obtain ⟨id, kind, activity, wanted, receiver, fd⟩ := c
  cases (active : activity = .active)
  rfl

theorem Numbered.mem_update (numbered : r.Numbered) {f : Connection → Connection} (id : Nat) (mem : c ∈ r.connections) :
    (if c.id = id then f c else c) ∈ (r.update id f).connections := by
  rw [Reactor.update, updateFirst_eq_map numbered.distinct]
  exact List.mem_map_of_mem mem

theorem Numbered.checkActivate_start (numbered : r.Numbered) {id : Nat}
    (ok : (r.checkActivate id policy .activate).1 = .ok ()) (mem : c ∈ r.connections) (allowed : c.kind ∈ policy)
    (known : c.fd.isSome) :
    (if c.id = id then c.start else c) ∈ (r.checkActivate id policy .activate).2.connections := by
  unfold Reactor.checkActivate at ok ⊢
  cases found : r.connection? id with
  | none =>
      rw [found] at ok
      cases ok
  | some d =>
      obtain rfl : d.id = id := (connection?_split found).1
      rw [found] at ok
      dsimp only at ok ⊢
      by_cases own : c.id = d.id
      · rw [if_pos own]
        obtain rfl := numbered.eq_of_id mem (connection?_mem found) own
        simp only [allowed, and_self, decide_true, if_true] at ok ⊢
        cases activity : c.activity with
        | active => rwa [start_eq_self activity]
        | inactive =>
            obtain ⟨fd, eq⟩ := Option.isSome_iff_exists.1 known
            simp only [activity, Reactor.activate, eq] at ok ⊢
            split <;> rename_i enabled <;> rw [enabled] at ok
            · cases ok
            · rename_i table
              have image := Numbered.mem_update (r := { r with table }) ⟨numbered.positive, numbered.distinct, numbered.below⟩
                (f := Connection.start) c.id mem
              rwa [if_pos rfl] at image
        | _ =>
            rw [activity] at ok
            cases ok
      · rw [if_neg own]
        split
        · dsimp only
          split
          · exact mem
          · exact mem_deactivate_of_ne mem own
        · split
          · exact mem_activate_of_ne mem own
          · exact mem
        · exact mem

theorem Numbered.checkAll_start (numbered : r.Numbered) {ids : List Nat} (ok : (r.checkAll policy ids).1 = .ok ())
    (mem : c ∈ r.connections) (allowed : c.kind ∈ policy) (known : c.fd.isSome) :
    (if c.id ∈ ids then c.start else c) ∈ (r.checkAll policy ids).2.connections := by
  induction ids generalizing r c with
  | nil => exact mem
  | cons id ids ih =>
      have step := @Numbered.checkActivate_start r c policy numbered id
      have next := (numbered.checkActivate id policy).numbered numbered (checkActivate_ids r id policy .activate)
      unfold Reactor.checkAll at ok ⊢
      generalize r.checkActivate id policy .activate = outcome at ok step next ⊢
      obtain ⟨_ | _, q⟩ := outcome
      · cases ok
      · have step := step rfl mem allowed known
        by_cases own : c.id = id
        · rw [if_pos own] at step
          have rest := ih next ok step allowed known
          rw [if_pos (own ▸ List.mem_cons_self)]
          split at rest <;> exact rest
        · rw [if_neg own] at step
          have rest := ih next ok step allowed known
          simpa [own] using rest

end Reactor

namespace Site

open Reactor

variable {loan : Option Loan} {s : Site} {address : Net.Address} {level : Nat}

theorem applyLevel_phases (level : Nat) (s : Site) : (∃ e, s.applyLevel level = (.error e, s)) ∨
    ∃ filter t, (∃ e, (s.setFilter filter).ensureListeners = (.error e, t) ∧
        s.applyLevel level = (.error e, t.requestExit)) ∨
      (s.setFilter filter).ensureListeners = (.ok (), t) ∧
        (s.applyLevel level).2 = { t with reactor := (t.reactor.reconcile t.state.filter.allowed .all).2 } ∧
        ∀ change, (s.applyLevel level).1 = .ok change → (t.reactor.reconcile t.state.filter.allowed .all).1 = .ok () := by
  unfold Site.applyLevel
  cases s.state.filter.changeLevel level with
  | error e => exact Or.inl ⟨_, rfl⟩
  | ok outcome =>
      obtain ⟨change, filter⟩ := outcome
      dsimp only
      refine Or.inr ⟨filter, (s.setFilter filter).ensureListeners.2, ?_⟩
      split <;> rename_i ensured <;> rw [ensured]
      · exact Or.inl ⟨_, rfl, rfl⟩
      · rename_i t
        refine Or.inr ⟨rfl, ?_⟩
        rw [react_eq]
        dsimp only
        cases (t.reactor.reconcile t.state.filter.allowed .all).1 with
        | ok => exact ⟨rfl, fun _ _ => rfl⟩
        | error error => exact ⟨rfl, fun _ ok => by cases ok⟩

theorem Listed.setFilter (listed : s.Listed loan) (filter : Filter.MessageFilter) : (s.setFilter filter).Listed loan :=
  ⟨listed.coherent, listed.numbered, listed.lender, listed.addresses, listed.ids, listed.named, listed.entered,
    listed.bound⟩

theorem Listed.reconcile (listed : s.Listed loan) (policy : KindSet) :
    ({ s with reactor := (s.reactor.reconcile policy .all).2 } : Site).Listed loan :=
  listed.keeps (listed.coherent.passes_checkAll policy _) (listed.coherent.checkAll policy _).1
    (listed.numbered.checkAll_numbered policy _) rfl rfl

theorem Listed.applyLevel (listed : s.Listed loan) (level : Nat)
    (last : (s.applyLevel level).2.reactor.ids.next < idBound) : (s.applyLevel level).2.Listed loan := by
  rcases applyLevel_phases level s with ⟨e, same⟩ | ⟨filter, t, ⟨e, ensured, same⟩ | ⟨ensured, same, -⟩⟩
  · rwa [same]
  · have after := (listed.setFilter filter).ensureListeners
    rw [same] at last ⊢
    rw [ensured] at after
    obtain ⟨coherent, numbered, lender, addresses, ids, named, entered, bound⟩ := (after last).1
    exact ⟨coherent, numbered, lender, addresses, ids, named, entered, bound⟩
  · have after := (listed.setFilter filter).ensureListeners
    rw [same] at last ⊢
    rw [ensured] at after
    exact (after ((reconcile_ids_le t).trans_lt last)).1.reconcile _

def At (s : Site) (address : Net.Address) (c : Connection) : Prop :=
  (c.id, address) ∈ s.state.listeners ∨ ∃ e, c.endpoint? = some e ∧ s.reactor.host.address? e = some address

structure Serves (s : Site) (address : Net.Address) (c : Connection) : Prop where
  mem : c ∈ s.reactor.connections
  client : c.kind = .clientConnect
  active : c.IsActive
  entry : (c.id, address) ∈ s.state.listeners
  listens : ∃ e, c.endpoint? = some e ∧ e.kind = .tcpListener ∧ s.reactor.host.IsOpen e ∧
    s.reactor.host.address? e = some address
  sole : ∀ d ∈ s.reactor.connections, d.kind = .clientConnect → s.At address d → d = c

/-- A listener of the address that is still there has its number, and otherwise the number is a new one. -/
structure Succeeds (s : Site) (address : Net.Address) (c : Connection) : Prop where
  kept : ∀ b ∈ s.reactor.connections, (b.id, address) ∈ s.state.listeners → c.id = b.id
  new : (∀ b ∈ s.reactor.connections, (b.id, address) ∉ s.state.listeners) → s.reactor.ids.next ≤ c.id

theorem Listed.sole (listed : s.Listed loan) {c d : Connection} (mem : c ∈ s.reactor.connections)
    (entry : (c.id, address) ∈ s.state.listeners) (among : d ∈ s.reactor.connections) (client : d.kind = .clientConnect)
    (here : s.At address d) : d = c := by
  obtain ⟨l, own, number⟩ := listed.entered d among client
  have same : l.2 = address := by
    rcases here with listed' | ⟨e, endpoint, listens⟩
    · rw [List.inj_on_of_nodup_map listed.ids own listed' number]
    · obtain ⟨-, bound⟩ := listed.bound d among e (Or.inl endpoint) l own number
      exact Option.some.inj (bound.symm.trans listens)
  have one := List.inj_on_of_nodup_map listed.addresses own entry same
  exact listed.numbered.eq_of_id among mem (number.symm.trans (congrArg Prod.fst one))

theorem Listed.keeper (listed : s.Listed loan) (calm : s.Calm loan) {t : Site} (adds : s.forgetListeners.Adds t)
    {c : Connection} (entry : (c.id, address) ∈ t.state.listeners) {l : Loan} (lent : loan = some l) : c.id ≠ l.id := by
  intro own
  obtain ⟨-, added, listeners, new⟩ := adds
  rw [listeners] at entry
  rcases List.mem_append.1 entry with old | more
  · obtain ⟨before, here⟩ := List.mem_filter.1 old
    obtain ⟨b, found⟩ := Option.isSome_iff_exists.1 here
    have number : b.id = c.id := (connection?_split found).1
    have mem := connection?_mem found
    exact calm b mem l lent (number.trans own) ((listed.named _ before).2.2 b mem number)
  · exact absurd (own ▸ listed.lender l lent) (new _ more).not_gt

theorem Listed.succeeds (listed : s.Listed loan) {t : Site} (after : t.Listed loan) (adds : s.forgetListeners.Adds t)
    {c : Connection} (entry : (c.id, address) ∈ t.state.listeners) : s.Succeeds address c := by
  obtain ⟨-, added, listeners, new⟩ := adds
  constructor
  · intro b mem before
    have here : (s.reactor.connection? b.id).isSome := by
      rw [connection?_of_nodup listed.numbered.distinct mem]
      rfl
    have kept : (b.id, address) ∈ t.state.listeners :=
      listeners ▸ List.mem_append_left _ (List.mem_filter.2 ⟨before, here⟩)
    exact congrArg Prod.fst (List.inj_on_of_nodup_map after.addresses entry kept rfl)
  · intro gone
    rw [listeners] at entry
    rcases List.mem_append.1 entry with old | more
    · obtain ⟨before, here⟩ := List.mem_filter.1 old
      obtain ⟨b, found⟩ := Option.isSome_iff_exists.1 here
      have number : b.id = c.id := (connection?_split found).1
      exact absurd (number ▸ before) (gone b (connection?_mem found))
    · exact new _ more

theorem Listed.applyLevel_serves (listed : s.Listed loan) (calm : s.Calm loan) {change : Filter.LevelChange}
    (ok : (s.applyLevel level).1 = .ok change) (last : (s.applyLevel level).2.reactor.ids.next < idBound)
    (allowed : .clientConnect ∈ (s.applyLevel level).2.state.filter.allowed)
    (wanted : address ∈ s.state.settings.listenAddresses) :
    ∃ c, (s.applyLevel level).2.Serves address c ∧ s.Succeeds address c := by
  have final := listed.applyLevel level last
  rcases applyLevel_phases level s with ⟨e, failed⟩ | ⟨filter, t, ⟨e, -, failed⟩ | ⟨ensured, same, done⟩⟩
  · cases (congrArg Prod.fst failed).symm.trans ok
  · cases (congrArg Prod.fst failed).symm.trans ok
  have before : t.reactor.ids.next < idBound := by
    rw [same] at last
    exact (reconcile_ids_le t).trans_lt last
  rw [same] at final allowed ⊢
  have seen := (listed.setFilter filter).ensureListeners
  have state := (ensureListeners_extends (s.setFilter filter)).state
  rw [ensured] at seen state
  have policy : t.state.filter = filter := by
    rw [state]
    rfl
  obtain ⟨after, rest⟩ := seen before
  obtain ⟨adds, opened⟩ := rest (policy ▸ allowed)
  obtain ⟨c, mem, entry, known⟩ := (opened rfl).opened address wanted
  have client := (after.named _ entry).2.2 c mem rfl
  -- Every connection is brought in line, and this one has a descriptor, so that it is active in the end.
  have here : c.start ∈ (t.reactor.reconcile t.state.filter.allowed .all).2.connections := by
    have among : c.id ∈ t.reactor.idsOf .all :=
      List.mem_map_of_mem (List.mem_filter.2 ⟨mem, decide_eq_true KindSet.mem_all⟩)
    have started := after.numbered.checkAll_start (done change ok) mem (client ▸ allowed) known
    rwa [if_pos among] at started
  obtain ⟨e, endpoint⟩ : ∃ e, c.endpoint? = some e := by
    -- If a handler runs, it is not this listener's.
    have held : c.receiver.isSome := by
      refine after.coherent.present c ?_
      cases lent : loan with
      | none => exact mem
      | some l => exact (List.mem_eraseP_of_neg (by simpa using listed.keeper calm adds entry lent)).2 mem
    obtain ⟨receiver, held⟩ := Option.isSome_iff_exists.1 held
    rw [(after.coherent.books.settled c mem).fd receiver held, Receiver.fd?, Option.isSome_map] at known
    rw [endpoint?_of_receiver held]
    exact Option.isSome_iff_exists.1 known
  obtain ⟨sort, listens⟩ := final.bound c.start here e (Or.inl endpoint) _ entry rfl
  have isOpen := isOpen_of_holds final.coherent here (Or.inl endpoint)
  refine ⟨c.start, ⟨here, client, rfl, entry, ⟨e, endpoint, sort, isOpen, listens⟩, ?_⟩, ?_⟩
  · exact fun d among client at' => final.sole here entry among client at'
  · obtain ⟨kept, new⟩ := (listed.setFilter filter).succeeds after adds entry
    exact ⟨kept, new⟩

end Site

end TraceGate
