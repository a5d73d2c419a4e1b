import TraceGate.Proofs.Daemon.Moves
import TraceGate.Proofs.Reactor.Round

namespace TraceGate

open Connection Relation

namespace Site

variable {loan : Option Loan} {s : Site}

theorem Ordered.of_sublist (ordered : s.Ordered loan) {reactor : Reactor} (orderly : reactor.Orderly loan)
    (later : Custody (fun _ _ _ => True) s.reactor reactor)
    (sublist : reactor.connections.Sublist s.reactor.connections) : ({ s with reactor } : Site).Ordered loan where
  orderly := orderly
  listed c mem := ordered.listed c (sublist.subset mem)
  addresses := ordered.addresses
  named l mem :=
    ⟨(ordered.named l mem).1.trans_le later.ids_le, fun c mem' => (ordered.named l mem).2 c (sublist.subset mem')⟩

theorem Governed.of_sublist (governed : s.Governed loan) {reactor : Reactor} (orderly : reactor.Orderly loan)
    (later : Custody (fun _ _ _ => True) s.reactor reactor)
    (sublist : reactor.connections.Sublist s.reactor.connections) : ({ s with reactor } : Site).Governed loan where
  ordered := governed.ordered.of_sublist orderly later sublist
  active c mem := governed.active c (sublist.subset mem)
  closed c mem := governed.closed c (sublist.subset mem)

theorem Governed.grow (governed : s.Governed loan) {host : Host} (grows : Host.Grows s.reactor.host host) :
    (s.setHost host).Governed loan :=
  ⟨governed.ordered.grow grows, governed.active, governed.closed⟩

theorem Governed.register (governed : s.Governed loan) (last : s.reactor.ids.next < idBound) {e : Endpoint}
    (loose : s.reactor.Loose loan e) (other : e.kind ≠ .tcpListener) {kind : Kind} (client : kind ≠ .clientConnect) :
    ({ s with reactor := (s.reactor.register s.state.filter.allowed kind (.ofEndpoint e) Flags.input).2 } :
      Site).Governed loan ∧
    ∀ c ∈ (s.reactor.register s.state.filter.allowed kind (.ofEndpoint e) Flags.input).2.connections,
      c ∈ s.reactor.connections ∨ c.id = s.reactor.ids.next := by
  have later : Custody (fun _ _ _ => True) s.reactor (s.reactor.register s.state.filter.allowed kind (.ofEndpoint e)
    Flags.input).2 := Custody.register _ _ _ _ _ fun _ _ => trivial
  have registers : Reactor.Registers s.state.filter.allowed loan s.reactor
      (Connection.new s.reactor.ids.next kind (.ofEndpoint e) Flags.input)
      (s.reactor.register s.state.filter.allowed kind (.ofEndpoint e) Flags.input) :=
    governed.ordered.orderly.register last loose (fun network => absurd network other) _ _
  generalize s.reactor.register s.state.filter.allowed kind (.ofEndpoint e) Flags.input = outcome at later registers
  obtain ⟨answer, reactor⟩ := outcome
  obtain ⟨-, orderly, connections⟩ := registers
  dsimp only at later orderly connections ⊢
  obtain ⟨n, number, sort, active, connections⟩ : ∃ n : Connection, n.id = s.reactor.ids.next ∧ n.kind = kind ∧
      (n.IsActive ↔ n.kind ∈ s.state.filter.allowed) ∧ reactor.connections = s.reactor.connections ++ [n] := by
    refine ⟨_, follow_id, follow_kind, ?_, connections⟩
    rw [follow_kind]
    exact follow_isActive
  have members : ∀ c, c ∈ reactor.connections ↔ c ∈ s.reactor.connections ∨ c = n := fun c => by simp [connections]
  have ordered := governed.ordered.join orderly later number members
    (fun listener => absurd (sort.symm.trans listener) client) (List.forall_mem_nil _)
    (by rw [List.append_nil]; exact governed.ordered.addresses)
  rw [List.append_nil] at ordered
  refine ⟨⟨ordered, ?_, ?_⟩, ?_⟩
  · intro c mem
    rcases (members c).1 mem with old | rfl
    · exact governed.active c old
    · exact active
  · intro c mem
    rcases (members c).1 mem with old | rfl
    · exact governed.closed c old
    · exact fun listener => absurd (sort.symm.trans listener) client
  · intro c mem
    rcases (members c).1 mem with old | rfl
    · exact Or.inl old
    · exact Or.inr number

end Site

namespace Handlers

variable {kind : Kind} {id : Nat} {s s' : Scene State}

/-- While a handler runs, the policy is kept, and the level may move unless the handler is a client
listener's. -/
structure Keeps (kind : Kind) (id : Nat) (s : Scene State) : Prop where
  governed : Site.Governed (some (s.loan id)) ⟨s.state, s.reactor⟩
  calm : kind ≠ .clientConnect → Site.Calm (some (s.loan id)) ⟨s.state, s.reactor⟩

theorem Move.later (move : Move kind id s s') : Custody (fun _ _ _ => True) s.reactor s'.reactor := by
  cases move with
  | use same grows houses => exact Custody.of_grows grows
  | note stats notices exit => exact Custody.refl _
  | accept grows houses isOpen new other admits =>
      exact (Custody.of_grows grows).trans (Custody.register _ _ _ _ _ fun _ _ => trivial)
  | unregister peer => exact Custody.unregister _ _
  | forward bytes => exact Custody.sendTo _ _ _
  | level n leads => exact Site.applyLevel_later n ⟨s.state, s.reactor⟩

theorem Move.keeps (move : Move kind id s s') (smooth : (siteOf s).Smooth (siteOf s')) (keeps : Keeps kind id s) :
    Keeps kind id s' := by
  have later := move.later
  obtain ⟨governed, calm⟩ := keeps
  cases move with
  | @use receiver host same grows houses =>
      have loan : Scene.loan id { s with receiver, reactor := { s.reactor with host } } = s.loan id := by
        rw [Scene.loan, same]
        rfl
      refine ⟨?_, fun other => ?_⟩ <;> rw [loan]
      · exact governed.grow grows
      · exact calm other
  | note stats notices exit =>
      obtain ⟨⟨orderly, listed, addresses, named⟩, active, closed⟩ := governed
      exact ⟨⟨⟨orderly, listed, addresses, named⟩, active, closed⟩, calm⟩
  | @accept host e peer grows houses isOpen new other admits =>
      have grown := governed.grow grows
      have loose := governed.ordered.orderly.coherent.loose isOpen new
      have before : s.reactor.ids.next < idBound := later.ids_le.trans_lt smooth.last
      obtain ⟨after, members⟩ := grown.register before loose other (admitted?_standing admits).1
      refine ⟨after, fun quiet c mem l lent own => ?_⟩
      rcases members c mem with old | fresh
      · exact calm quiet c old l lent own
      · have below := governed.ordered.orderly.lender l lent
        rw [← own, fresh] at below
        exact absurd below (Nat.lt_irrefl _)
  | unregister peer =>
      obtain ⟨orderly, sublist⟩ := governed.ordered.orderly.unregister id
      exact ⟨governed.of_sublist orderly later sublist, fun other c mem => calm other c (sublist.subset mem)⟩
  | forward bytes =>
      obtain ⟨orderly, sublist⟩ := governed.ordered.orderly.sendTo consumers bytes
      exact ⟨governed.of_sublist orderly later sublist, fun other c mem => calm other c (sublist.subset mem)⟩
  | level n leads =>
      obtain ⟨after, still⟩ := governed.applyLevel (calm (ne_clientConnect (admitted?_leveler leads))) n smooth
      exact ⟨after, fun _ => still⟩

theorem Moves.later (moves : Moves kind id s s') : Custody (fun _ _ _ => True) s.reactor s'.reactor := by
  induction moves with
  | refl => exact Custody.refl _
  | tail _ move ih => exact ih.trans move.later

theorem Moves.keeps (moves : Moves kind id s s') (smooth : (siteOf s).Smooth (siteOf s')) (keeps : Keeps kind id s) :
    Keeps kind id s' := by
  induction moves with
  | refl => exact keeps
  | tail moves move ih => exact move.keeps (smooth.right (Moves.later moves)) (ih (smooth.left move.later))

end Handlers

namespace Site

variable {r : Reactor} {state : State} {c : Connection} {receiver : Receiver}

theorem Governed.opening (governed : Site.Governed none ⟨state, r⟩) (mem : c ∈ r.connections)
    (held : c.receiver = some receiver) : Handlers.Keeps c.kind c.id (r.opening c.id receiver state) := by
  obtain ⟨orderly, connections⟩ := governed.ordered.orderly.lend mem held
  have lent : ∀ d ∈ (r.update c.id Connection.lend).connections, ∃ b ∈ r.connections,
      d = if b.id = c.id then b.lend else b := by
    intro d mem
    rw [connections] at mem
    obtain ⟨b, origin, eq⟩ := List.mem_map.1 mem
    exact ⟨b, origin, eq.symm⟩
  have key : ∀ b : Connection, (if b.id = c.id then b.lend else b).id = b.id := fun b => by split <;> rfl
  have kind : ∀ b : Connection, (if b.id = c.id then b.lend else b).kind = b.kind := fun b => by split <;> rfl
  refine ⟨⟨governed.ordered.of_map orderly rfl key kind connections, ?_, ?_⟩, ?_⟩
  · intro d mem
    obtain ⟨b, origin, rfl⟩ := lent d mem
    rw [kind]
    split <;> exact governed.active b origin
  · intro d mem
    obtain ⟨b, origin, rfl⟩ := lent d mem
    split <;> exact governed.closed b origin
  · rintro other d mem' _ ⟨⟩ own
    obtain ⟨b, origin, rfl⟩ := lent d mem'
    rw [kind, governed.ordered.orderly.eq_of_id origin mem (key b ▸ own)]
    exact other

theorem Governed.restore {id : Nat} (governed : Site.Governed (some ⟨id, receiver.endpoint⟩) ⟨state, r⟩) :
    Site.Governed none ⟨state, r.restore id receiver⟩ := by
  obtain ⟨orderly, ids, connections⟩ := governed.ordered.orderly.restore
  have back : ∀ d ∈ (r.restore id receiver).connections, ∃ b ∈ r.connections,
      d = if b.id = id then { b with receiver := some receiver } else b := by
    intro d mem
    rw [connections] at mem
    obtain ⟨b, origin, eq⟩ := List.mem_map.1 mem
    exact ⟨b, origin, eq.symm⟩
  refine ⟨governed.ordered.of_map orderly ids (fun b => ?_) (fun b => ?_) connections, ?_, ?_⟩
  · split <;> rfl
  · split <;> rfl
  · intro d mem
    obtain ⟨b, origin, rfl⟩ := back d mem
    split <;> exact governed.active b origin
  · intro d mem
    obtain ⟨b, origin, rfl⟩ := back d mem
    split <;> exact governed.closed b origin

def Lawful (s : Site) : Prop := s.reactor.ids.next < idBound → s.reactor.host.refusals = 0 → s.Governed none

theorem Lawful.sooner {s s' : Site} (lawful : s.Lawful) (later : s.Later s') (last : s'.reactor.ids.next < idBound)
    (unrefused : s'.reactor.host.refusals = 0) : s.Governed none ∧ s.Smooth s' :=
  ⟨lawful (later.ids_le.trans_lt last) (Nat.le_zero.1 (unrefused ▸ later.refusals_le)),
    ⟨last, unrefused ▸ Nat.zero_le _⟩⟩

theorem attend_later (s : Reactor.Sighting) (r : Reactor) (state : State) :
    Custody (fun _ _ _ => True) r (r.attend Handlers.ofKind s state).2.1 := by
  unfold Reactor.attend
  split
  · unfold Reactor.unwatchStray
    split
    · exact Custody.unwatch _ _
    · exact Custody.refl _
  · rename_i c _
    split
    · have removed : Custody (fun _ _ _ => True) r (r.unregister c.id).2 := Custody.unregister r c.id
      split <;> rename_i eq <;> rw [eq] at removed <;> exact removed
    · split
      · exact Custody.refl _
      · rename_i receiver _
        have run : Custody (fun _ _ _ => True) r (r.runHandler (Handlers.ofKind c.kind) c.id receiver state).2.1 := by
          rw [Reactor.runHandler_snd]
          have moves := Handlers.does_ofKind c.kind c.id (r.opening c.id receiver state)
          have lent : Custody (fun _ _ _ => True) r (r.opening c.id receiver state).reactor := Custody.lend r c.id
          exact (lent.trans moves.later).trans (Custody.restore _ _ _ fun _ _ _ _ _ => trivial)
        split <;> rename_i eq <;> rw [eq] at run <;> exact run

theorem Lawful.attend (lawful : Site.Lawful ⟨state, r⟩) (s : Reactor.Sighting) :
    Site.Lawful ⟨(r.attend Handlers.ofKind s state).2.2, (r.attend Handlers.ofKind s state).2.1⟩ := by
  intro last unrefused
  obtain ⟨governed, smooth⟩ := lawful.sooner (attend_later s r state) last unrefused
  have coherent := governed.ordered.orderly.coherent
  rcases coherent.attend_cases Handlers.ofKind s state with ⟨-, eq⟩ | ⟨c, receiver, target, held, eq | ⟨_, -, eq⟩⟩ <;>
    rw [eq] at smooth ⊢
  · rw [coherent.unwatchStray]
    exact governed
  · obtain ⟨orderly, sublist⟩ := governed.ordered.orderly.unregister c.id
    exact governed.of_sublist orderly (Custody.unregister r c.id) sublist
  · have mem := Reactor.connection?_mem (Reactor.Sighting.target?_eq_some target).2.1
    have moves := Handlers.does_ofKind c.kind c.id (r.opening c.id receiver state)
    rw [Reactor.runHandler_snd] at smooth ⊢
    generalize (Handlers.ofKind c.kind c.id).run.run (r.opening c.id receiver state) = final at smooth moves ⊢
    have back : Custody (fun _ _ _ => True) final.2.reactor (final.2.reactor.restore c.id final.2.receiver) :=
      Custody.restore _ _ _ fun _ _ _ _ _ => trivial
    have lent : Custody (fun _ _ _ => True) r (r.opening c.id receiver state).reactor := Custody.lend r c.id
    have smooth : Site.Smooth ⟨state, r⟩ (Handlers.siteOf final.2) := smooth.left back
    have keeps := moves.keeps (smooth.right lent) (governed.opening mem held)
    exact keeps.governed.restore

theorem Governed.table (governed : Site.Governed none ⟨state, r⟩) {table : Table}
    (coherent : ({ r with table } : Reactor).Coherent none) (room : table.room = r.table.room) :
    Site.Governed none ⟨state, { r with table }⟩ := by
  have later : Custody (fun _ _ _ => True) r { r with table } := 
    Custody.of_connections room fun c mem e eq => Or.inl ⟨c, mem, rfl, rfl, eq⟩
  have orderly := governed.ordered.orderly.of_sublist coherent later rfl (List.Sublist.refl _)
  exact governed.of_sublist orderly later (List.Sublist.refl _)

theorem Lawful.round (lawful : Site.Lawful ⟨state, r⟩) (wait : Wait) :
    Site.Lawful ⟨(r.round wait Handlers.ofKind state).2.2, (r.round wait Handlers.ofKind state).2.1⟩ := by
  refine (Reactor.round_invariant (I := fun r state => Site.Lawful ⟨state, r⟩) (E := fun _ => True)
    (fun s r state lawful => ⟨lawful.attend s, fun _ _ => trivial⟩) ?_ ?_ lawful fun _ _ => trivial).1
  · intro seen last unrefused
    have governed := lawful last unrefused
    exact governed.table (governed.ordered.orderly.coherent.record seen) rfl
  · intro seen last unrefused
    have governed := lawful last unrefused
    exact governed.table (governed.ordered.orderly.coherent.awoken seen) rfl

end Site

end TraceGate
