import TraceGate.Proofs.Reactor.Round

namespace TraceGate

open Connection Relation

def anyGift : Nat → Endpoint → Prop := fun _ _ => True

namespace Reactor

structure Consistent (r : Reactor) : Prop where
  /-- Active connections and occupied slots correspond. -/
  matched : (r.table.occupied.map fun slot => (some slot.fd, slot.wanted)).Perm
    ((r.connections.filter (·.IsActive)).map fun c => (c.fd.map Int.ofNat, c.wanted))
  distinct : (r.table.occupied.map (·.fd)).Nodup
  backed : ∀ c ∈ r.connections, c.IsActive → ∃ receiver e, c.receiver = some receiver ∧
    receiver.endpoint = some e ∧ r.host.IsOpen e ∧ c.fd = some e.fd
  polled : ∀ slot ∈ r.table.occupied, ∃ e, r.host.IsOpen e ∧ slot.fd = e.fd
  settled : ∀ c ∈ r.connections, c.activity = .inactive ∨ c.activity = .active
  present : ∀ c ∈ r.connections, c.receiver.isSome
  counted : ∀ kind, r.count kind = (r.connections.filter (·.kind = kind)).length

/-- The reactors that a program comes to have between operations. -/
inductive Reachable : Reactor → Prop
  | new {host : Host} (sound : host.Sound) (ids : Ids) (room : Option Nat) :
      Reachable { host, ids, table := { Table.empty with room } }
  | operation {r r' : Reactor} {error : Option EventError} (before : Reachable r)
      (operation : Operation anyGift none r error r') : Reachable r'
  | outside {r r' : Reactor} (before : Reachable r) (elapses : Elapses r r') : Reachable r'
  | round {σ : Type} {r : Reactor} {handlers : Kind → Handler σ} (before : Reachable r) (wait : Wait)
      (acts : ∀ kind, (handlers kind).Acts anyGift) (state : σ) : Reachable (r.round wait handlers state).2.1

/-- The handler of the connection `id` comes upon the scene `s` in a round. -/
inductive Meets {σ : Type} (wait : Wait) (handlers : Kind → Handler σ) (r : Reactor) (state : σ) :
    Nat → Scene σ → Prop
  | intro {answer : Answer} {sighting : Sighting} {q : Reactor} {state' : σ} {c : Connection} {receiver : Receiver}
      {s : Scene σ} (seen : wait r.host r.table.occupied = .ok answer)
      (comes : ComesUp handlers sighting q state'
        ({ r with table := r.table.record answer.seen } : Reactor).sightings (r.awoken answer.seen) state)
      (target : sighting.target? q = some c) (held : c.receiver = some receiver)
      (steps : ReflTransGen (Scene.Step anyGift c.id) (q.opening c.id receiver state') s) :
      Meets wait handlers r state c.id s

variable {r : Reactor}

theorem Coherent.watched (coherent : r.Coherent none) :
    (r.connections.filterMap watch?).map (fun w => (some w.1, w.2)) =
      (r.connections.filter (·.IsActive)).map fun c => (c.fd.map Int.ofNat, c.wanted) := by
  have settled := coherent.books.settled
  generalize r.connections = connections at settled
  induction connections with
  | nil => rfl
  | cons c l ih =>
      have tail := ih fun d mem => settled d (List.mem_cons_of_mem _ mem)
      rcases (settled c List.mem_cons_self).activity with inactive | ⟨active, known⟩
      · rw [List.filterMap_cons_none (watch?_of_inactive inactive), tail, List.filter_cons_of_neg]
        simp [IsActive, inactive]
      · obtain ⟨fd, known⟩ := Option.isSome_iff_exists.1 known
        rw [List.filterMap_cons_some (watch?_of_active active known), List.map_cons, tail,
          List.filter_cons_of_pos (by simpa using active), List.map_cons, known]
        rfl

theorem Coherent.backed (coherent : r.Coherent none) (c : Connection) (mem : c ∈ r.connections) (active : c.IsActive) :
    ∃ receiver e, c.receiver = some receiver ∧ receiver.endpoint = some e ∧ r.host.IsOpen e ∧ c.fd = some e.fd := by
  have settled := coherent.books.settled c mem
  obtain ⟨receiver, held⟩ := Option.isSome_iff_exists.1 (coherent.present c mem)
  rcases settled.activity with inactive | ⟨-, known⟩
  · rw [IsActive, inactive] at active
    cases active
  · have same := settled.fd receiver held
    obtain ⟨e, endpoint⟩ : ∃ e, receiver.endpoint = some e := by
      rw [same, Receiver.fd?, Option.isSome_map] at known
      exact Option.isSome_iff_exists.1 known
    refine ⟨receiver, e, held, endpoint, coherent.books.isOpen e ?_, ?_⟩
    · refine List.mem_append_left _ (List.mem_filterMap.2 ⟨c, mem, ?_⟩)
      rw [endpoint?_of_receiver held, endpoint]
    · rw [same, Receiver.fd?, endpoint]
      rfl

theorem Coherent.consistent (coherent : r.Coherent none) : r.Consistent where
  matched := by
    rw [← coherent.watched]
    have same := coherent.books.tracks.same.map fun w : Int × Flags => (some w.1, w.2)
    rwa [List.map_map] at same
  distinct := coherent.books.tracks.occupied_nodup
  backed := coherent.backed
  polled slot mem := by
    have watched : slot.watch ∈ r.connections.filterMap watch? :=
      coherent.books.tracks.same.mem_iff.1 (List.mem_map_of_mem mem)
    obtain ⟨c, mem, watch⟩ := List.mem_filterMap.1 watched
    unfold watch? at watch
    split at watch
    · rename_i active
      obtain ⟨fd, known, eq⟩ := Option.map_eq_some_iff.1 watch
      obtain ⟨receiver, e, -, -, isOpen, own⟩ := coherent.backed c mem active
      refine ⟨e, isOpen, ?_⟩
      rw [known] at own
      cases own
      exact (congrArg Prod.fst eq).symm
    · cases watch
  settled c mem := by
    rcases (coherent.books.settled c mem).activity with inactive | ⟨active, -⟩
    · exact Or.inl inactive
    · exact Or.inr active
  present := coherent.present
  counted kind := by
    rw [coherent.counted, List.count_eq_countP, List.countP_map, List.countP_eq_length_filter]
    rfl

theorem coherent_new {host : Host} (sound : host.Sound) (ids : Ids) (room : Option Nat) :
    ({ host, ids, table := { Table.empty with room } } : Reactor).Coherent none where
  sound := sound
  books := by
    refine ⟨⟨Nat.zero_le _, List.Perm.refl _, List.nodup_nil⟩, ?_, List.nodup_nil, ?_⟩
    · intro c mem
      cases mem
    · intro e mem
      cases mem
  present := by
    intro c mem
    cases mem
  counted kind := by cases kind <;> rfl

theorem Coherent.round {σ : Type} {gives : Nat → Endpoint → Prop} {handlers : Kind → Handler σ}
    (coherent : r.Coherent none) (wait : Wait) (acts : ∀ kind, (handlers kind).Acts gives) (state : σ) :
    (r.round wait handlers state).2.1.Coherent none ∧ ∀ id activity,
      (r.round wait handlers state).1 = .error (.invalidStatus id activity) →
        wait r.host r.table.occupied = .error (.invalidStatus id activity) := by
  have step : ∀ s (q : Reactor) (state : σ), q.Coherent none → (q.attend handlers s state).2.1.Coherent none ∧
      ∀ error, (q.attend handlers s state).1 = .error error → ∀ id activity, error = .invalidStatus id activity →
        wait r.host r.table.occupied = .error (.invalidStatus id activity) := by
    intro s q state coherent
    obtain ⟨after, valid⟩ := coherent.attend acts s state
    refine ⟨after, ?_⟩
    rintro _ failed id activity rfl
    exact absurd failed (valid id activity)
  obtain ⟨after, errors⟩ := round_invariant step (fun seen => coherent.record seen) (fun seen => coherent.awoken seen)
    coherent (by rintro _ failed id activity rfl; exact failed)
  exact ⟨after, fun id activity failed => errors _ failed id activity rfl⟩

theorem Reachable.coherent (reachable : Reachable r) : r.Coherent none := by
  induction reachable with
  | new sound ids room => exact coherent_new sound ids room
  | operation _ operation ih => exact (operation.coherent ih).1
  | outside _ elapses ih => exact elapses.coherent ih rfl fun _ mem => by cases mem
  | round _ wait acts state ih => exact (Coherent.round ih wait acts state).1

theorem Meets.coherent {σ : Type} {wait : Wait} {handlers : Kind → Handler σ} {state : σ} {id : Nat} {s : Scene σ}
    (meets : Meets wait handlers r state id s) (acts : ∀ kind, (handlers kind).Acts anyGift)
    (coherent : r.Coherent none) : s.Coherent id := by
  obtain ⟨seen, comes, target, held, steps⟩ := meets
  have before := comesUp_invariant (I := fun r (_ : σ) => r.Coherent none)
    (fun s r state coherent => (coherent.attend acts s state).1) comes (coherent.awoken _)
  exact Scene.steps_coherent steps (before.opening (Sighting.target?_eq_some target).2.1 held _)

/-- Between operations a reactor is consistent, and neither its operations, nor its rounds, nor the
operations of a handler in a round find a connection in a wrong state. -/
theorem Reachable.consistent_and_never_invalid (reachable : Reachable r) :
    r.Consistent ∧
    (∀ r' id activity, ¬Operation anyGift none r (some (.invalidStatus id activity)) r') ∧
    ∀ (σ : Type) (wait : Wait) (handlers : Kind → Handler σ) (state : σ), (∀ kind, (handlers kind).Acts anyGift) →
      (∀ id activity, (r.round wait handlers state).1 = .error (.invalidStatus id activity) →
        wait r.host r.table.occupied = .error (.invalidStatus id activity)) ∧
      ∀ id s, Meets wait handlers r state id s →
        ∀ r' d activity, ¬Operation anyGift (some (s.loan id)) s.reactor (some (.invalidStatus d activity)) r' := by
  have coherent := reachable.coherent
  refine ⟨coherent.consistent, ?_, fun σ wait handlers state acts => ⟨?_, ?_⟩⟩
  · intro r' id activity operation
    exact (operation.coherent coherent).2 id activity rfl
  · exact (coherent.round wait acts state).2
  · intro id s meets r' d activity operation
    exact (operation.coherent (meets.coherent acts coherent)).2 d activity rfl

end Reactor

namespace Quitting

def application : Endpoint × Host := ({} : Host).openEndpoint .unixStream (.stream 0)

def start : Reactor :=
  (({ host := application.2 } : Reactor).register .all .appMsg (.ofEndpoint application.1) Flags.input).2

def quit (_ : Kind) : Handler Unit := fun id => Turn.reactor fun r => ((), (r.unregister id).2)

theorem quit_acts (kind : Kind) : (quit kind).Acts anyGift := by
  intro id s _
  exact .single (.operation (.unregister id))

theorem start_reachable : start.Reachable := by
  have sound : application.2.Sound := (Host.grows_openEndpoint _ _ _).sound ⟨List.nodup_nil, by rintro e ⟨⟩⟩
  have fresh : ({ host := application.2 } : Reactor).Reachable := .new sound {} none
  refine fresh.operation (.register .all .appMsg (.ofEndpoint application.1) Flags.input ?_ fun _ _ => trivial)
  rintro _ ⟨⟩
  unfold Reactor.Loose Host.IsOpen
  decide

theorem consistent_after_quit :
    (start.round (Round.wait [(3, Flags.input)]) quit ()).2.1.connections = [] ∧
      (start.round (Round.wait [(3, Flags.input)]) quit ()).2.1.Consistent := by
  have after := start_reachable.round (Round.wait [(3, Flags.input)]) quit_acts ()
  exact ⟨by decide, (Reactor.Reachable.consistent_and_never_invalid after).1⟩

end Quitting

end TraceGate
