import TraceGate.Proofs.Reactor.Operation

namespace TraceGate

open Connection Relation

namespace Reactor

variable {σ : Type} {gives : Nat → Endpoint → Prop} {handlers : Kind → Handler σ} {wait : Wait}
  {r r' : Reactor} {c : Connection} {s : Sighting} {state state' : σ}

theorem Sighting.target?_eq_some (target : s.target? r = some c) :
    s.owner = some c.id ∧ r.connection? c.id = some c ∧ c.IsActive ∧ c.fd.map Int.ofNat = some s.fd := by
  obtain ⟨found, conditions⟩ := Option.filter_eq_some_iff.1 target
  obtain ⟨id, owner, found⟩ := Option.bind_eq_some_iff.1 found
  obtain rfl : c.id = id := (connection?_split found).1
  simp only [decide_eq_true_eq] at conditions
  exact ⟨owner, found, conditions⟩

theorem Coherent.attend_cases (coherent : r.Coherent none) (handlers : Kind → Handler σ) (s : Sighting) (state : σ) :
    s.target? r = none ∧ r.attend handlers s state = (.ok 0, r.unwatchStray s, state) ∨
    ∃ c receiver, s.target? r = some c ∧ c.receiver = some receiver ∧
      (r.attend handlers s state = ((r.unregister c.id).1.map fun _ => 0, (r.unregister c.id).2, state) ∨
        ∃ outcome : Except EventError Nat, (∀ id activity, outcome ≠ .error (.invalidStatus id activity)) ∧
          r.attend handlers s state = (outcome, (r.runHandler (handlers c.kind) c.id receiver state).2)) := by
  unfold Reactor.attend
  cases target : s.target? r with
  | none => exact Or.inl ⟨rfl, rfl⟩
  | some c =>
      have mem := connection?_mem (Sighting.target?_eq_some target).2.1
      obtain ⟨receiver, held⟩ := Option.isSome_iff_exists.1 (coherent.present c mem)
      refine Or.inr ⟨c, receiver, rfl, held, ?_⟩
      dsimp only
      split
      · left
        split <;> rename_i eq <;> rw [eq] <;> rfl
      · right
        rw [held]
        dsimp only
        split <;> rename_i eq <;> rw [eq]
        · exact ⟨_, fun _ _ => by simp, rfl⟩
        · exact ⟨_, fun _ _ => by simp, rfl⟩

theorem Coherent.unwatchStray (coherent : r.Coherent none) (s : Sighting) : r.unwatchStray s = r := by
  unfold Reactor.unwatchStray
  split
  · rename_i stray
    have absent : r.table.contains s.fd = false := by
      rw [← Bool.not_eq_true, coherent.books.tracks.contains_iff]
      intro watched
      obtain ⟨⟨fd, wanted⟩, mem, eq⟩ := List.mem_map.1 watched
      obtain ⟨c, mem, watch⟩ := List.mem_filterMap.1 mem
      have known : ∃ n, c.fd = some n ∧ (n : Int) = s.fd := by
        unfold watch? at watch
        split at watch
        · obtain ⟨n, known, pair⟩ := Option.map_eq_some_iff.1 watch
          cases pair
          exact ⟨n, known, eq⟩
        · cases watch
      obtain ⟨n, known, same⟩ := known
      have free := stray.2
      simp only [findDescriptor?, Option.isNone_map, Option.isNone_iff_eq_none, List.find?_eq_none] at free
      exact free c mem (by simp [known, same])
    rw [unwatch, Table.disable_of_not_contains absent]
  · rfl

def opening (r : Reactor) (id : Nat) (receiver : Receiver) (state : σ) : Scene σ :=
  { receiver, reactor := r.update id Connection.lend, state }

theorem runHandler_snd (handler : Handler σ) (id : Nat) (receiver : Receiver) (r : Reactor) (state : σ) :
    (r.runHandler handler id receiver state).2 =
      (((handler id).run.run (r.opening id receiver state)).2.reactor.restore id
        ((handler id).run.run (r.opening id receiver state)).2.receiver,
      ((handler id).run.run (r.opening id receiver state)).2.state) := rfl

theorem Coherent.opening (coherent : r.Coherent none) (found : r.connection? c.id = some c) {receiver : Receiver}
    (held : c.receiver = some receiver) (state : σ) : (r.opening c.id receiver state).Coherent c.id :=
  coherent.lend found held

theorem Coherent.runHandler (coherent : r.Coherent none) (found : r.connection? c.id = some c) {receiver : Receiver}
    (held : c.receiver = some receiver) {handler : Handler σ} (acts : handler.Acts gives) (state : σ) :
    (r.runHandler handler c.id receiver state).2.1.Coherent none := by
  have start := coherent.opening found held state
  have stop := Scene.steps_coherent (acts c.id _ start) start
  rw [runHandler_snd]
  exact Coherent.restore stop

theorem Coherent.attend (coherent : r.Coherent none) (acts : ∀ kind, (handlers kind).Acts gives) (s : Sighting)
    (state : σ) : (r.attend handlers s state).2.1.Coherent none ∧
      ∀ id activity, (r.attend handlers s state).1 ≠ .error (.invalidStatus id activity) := by
  rcases coherent.attend_cases handlers s state with ⟨-, eq⟩ | ⟨c, receiver, target, held, eq | ⟨outcome, valid, eq⟩⟩ <;>
    rw [eq]
  · rw [coherent.unwatchStray]
    exact ⟨coherent, fun _ _ => by simp⟩
  · obtain ⟨after, valid⟩ := coherent.unregister c.id
    refine ⟨after, fun id activity bad => valid id activity ?_⟩
    cases result : (r.unregister c.id).1 with
    | ok _ => rw [result] at bad; cases bad
    | error e => rw [result] at bad; cases bad; rfl
  · exact ⟨coherent.runHandler (Sighting.target?_eq_some target).2.1 held (acts c.kind) state, valid⟩

theorem Coherent.attend_induction {I : Option Loan → Reactor → Prop} (coherent : r.Coherent none)
    (acts : ∀ kind, (handlers kind).Acts gives) (initial : I none r) (removed : ∀ id, I none (r.unregister id).2)
    (lent : ∀ c ∈ r.connections, ∀ receiver : Receiver, c.receiver = some receiver →
      I (some ⟨c.id, receiver.endpoint⟩) (r.update c.id Connection.lend))
    (step : ∀ id (a b : Scene σ), Scene.Step gives id a b → a.Coherent id →
      I (some (a.loan id)) a.reactor → I (some (b.loan id)) b.reactor)
    (back : ∀ id (receiver : Receiver) (q : Reactor), I (some ⟨id, receiver.endpoint⟩) q → I none (q.restore id receiver))
    (s : Sighting) (state : σ) : I none (r.attend handlers s state).2.1 := by
  rcases coherent.attend_cases handlers s state with ⟨-, eq⟩ | ⟨c, receiver, target, held, eq | ⟨_, -, eq⟩⟩ <;> rw [eq]
  · rw [coherent.unwatchStray]
    exact initial
  · exact removed c.id
  · have found := (Sighting.target?_eq_some target).2.1
    have opened := coherent.opening found held state
    have called : ∀ b, ReflTransGen (Scene.Step gives c.id) (r.opening c.id receiver state) b →
        I (some (b.loan c.id)) b.reactor := by
      intro b steps
      induction steps with
      | refl => exact lent c (connection?_mem found) receiver held
      | tail before last ih => exact step c.id _ _ last (Scene.steps_coherent before opened) ih
    rw [runHandler_snd]
    exact back c.id _ _ (called _ (acts c.kind c.id _ opened))

/-- The sighting `s` is dealt with while the reactor and the state are `q` and `state'`. -/
inductive ComesUp (handlers : Kind → Handler σ) (s : Sighting) (q : Reactor) (state' : σ) :
    List Sighting → Reactor → σ → Prop
  | here {rest : List Sighting} : ComesUp handlers s q state' (s :: rest) q state'
  | later {t : Sighting} {rest : List Sighting} {r r' : Reactor} {n : Nat} {state next : σ}
      (before : r.attend handlers t state = (.ok n, r', next)) (after : ComesUp handlers s q state' rest r' next) :
      ComesUp handlers s q state' (t :: rest) r state

theorem dispatch_invariant {I : Reactor → σ → Prop} {E : EventError → Prop}
    (step : ∀ s r state, I r state → I (r.attend handlers s state).2.1 (r.attend handlers s state).2.2 ∧
      ∀ error, (r.attend handlers s state).1 = .error error → E error)
    (sightings : List Sighting) (calls : Nat) (initial : I r state) :
    I (r.dispatch handlers sightings calls state).2.1 (r.dispatch handlers sightings calls state).2.2 ∧
      ∀ error, (r.dispatch handlers sightings calls state).1 = .error error → E error := by
  induction sightings generalizing r state calls with
  | nil => exact ⟨initial, fun _ failed => by cases failed⟩
  | cons s rest ih =>
      obtain ⟨after, errors⟩ := step s r state initial
      unfold Reactor.dispatch
      split <;> rename_i eq <;> rw [eq] at after errors
      · exact ⟨after, errors⟩
      · exact ih _ after

theorem comesUp_invariant {I : Reactor → σ → Prop} {q : Reactor} {sightings : List Sighting}
    (step : ∀ s r state, I r state → I (r.attend handlers s state).2.1 (r.attend handlers s state).2.2)
    (comes : ComesUp handlers s q state' sightings r state) (initial : I r state) : I q state' := by
  induction comes with
  | here => exact initial
  | @later t rest r r' n state next before _ ih =>
      have after := step t r state initial
      rw [before] at after
      exact ih after

def awoken (r : Reactor) (seen : List Flags) : Reactor := { r with table := (r.table.record seen).clear }

theorem Coherent.awoken (coherent : r.Coherent none) (seen : List Flags) : (r.awoken seen).Coherent none :=
  (coherent.record seen).clear

theorem round_invariant {I : Reactor → σ → Prop} {E : EventError → Prop}
    (step : ∀ s r state, I r state → I (r.attend handlers s state).2.1 (r.attend handlers s state).2.2 ∧
      ∀ error, (r.attend handlers s state).1 = .error error → E error)
    (record : ∀ seen, I { r with table := r.table.record seen } state) (awoken : ∀ seen, I (r.awoken seen) state)
    (initial : I r state) (waiting : ∀ error, wait r.host r.table.occupied = .error error → E error) :
    I (r.round wait handlers state).2.1 (r.round wait handlers state).2.2 ∧
      ∀ error, (r.round wait handlers state).1 = .error error → E error := by
  unfold Reactor.round
  split
  · rename_i error failed
    refine ⟨initial, fun error' eq => ?_⟩
    cases eq
    exact waiting error failed
  · rename_i answer _
    dsimp only
    split
    · exact ⟨record answer.seen, fun _ eq => by cases eq⟩
    · exact dispatch_invariant step _ _ (awoken answer.seen)

end Reactor

end TraceGate
