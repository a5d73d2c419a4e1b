import Mathlib.Data.List.Infix
import TraceGate.Proofs.Reactor.Numbers
import TraceGate.Proofs.Reactor.Sightings

namespace TraceGate

open Connection Relation

variable {σ : Type}

/-- The turn of a sighting, with the reactor and the state that it finds. -/
structure Occasion (σ : Type) where
  sighting : Reactor.Sighting
  reactor : Reactor
  state : σ

namespace Occasion

variable {o : Occasion σ}

def outcome (o : Occasion σ) (handlers : Kind → Handler σ) : Except EventError Nat × Reactor × σ :=
  o.reactor.attend handlers o.sighting o.state

abbrev IsFailure (o : Occasion σ) : Prop :=
  Flags.meets o.sighting.seen (Flags.failed ||| Flags.notOpen)

def call? (o : Occasion σ) : Option (Connection × Receiver) :=
  if o.IsFailure then none
  else (o.sighting.target? o.reactor).bind fun c => c.receiver.map fun receiver => (c, receiver)

def answerTo (kind : Kind) : Except String Unit → Except EventError Nat
  | .ok () => .ok 1
  | .error message => .error (.handler kind message)

inductive Course (o : Occasion σ) : Prop
  | vain (target : o.sighting.target? o.reactor = none) (silent : o.call? = none)
      (outcome : ∀ handlers, o.outcome handlers = (.ok 0, o.reactor, o.state)) : Course o
  | removal (c : Connection) (target : o.sighting.target? o.reactor = some c) (failure : o.IsFailure)
      (silent : o.call? = none)
      (outcome : ∀ handlers, o.outcome handlers = (.ok 0, (o.reactor.unregister c.id).2, o.state)) : Course o
  | call (c : Connection) (receiver : Receiver) (target : o.sighting.target? o.reactor = some c)
      (fine : ¬o.IsFailure) (held : c.receiver = some receiver) (called : o.call? = some (c, receiver))
      (outcome : ∀ handlers, o.outcome handlers =
        (answerTo c.kind (o.reactor.runHandler (handlers c.kind) c.id receiver o.state).1,
          (o.reactor.runHandler (handlers c.kind) c.id receiver o.state).2)) : Course o

theorem call?_eq_some {c : Connection} {receiver : Receiver} (called : o.call? = some (c, receiver)) :
    o.sighting.target? o.reactor = some c ∧ c.receiver = some receiver := by
  unfold call? at called
  split at called
  · cases called
  · obtain ⟨d, target, rest⟩ := Option.bind_eq_some_iff.1 called
    obtain ⟨_, held, pair⟩ := Option.map_eq_some_iff.1 rest
    cases pair
    exact ⟨target, held⟩

theorem call?_owner {c : Connection} {receiver : Receiver} (called : o.call? = some (c, receiver)) :
    o.sighting.owner = some c.id :=
  (Reactor.Sighting.target?_eq_some (call?_eq_some called).1).1

theorem Course.counted (course : o.Course) {handlers : Kind → Handler σ} {n : Nat}
    (done : (o.outcome handlers).1 = .ok n) : n = o.call?.toList.length := by
  cases course with
  | vain target silent outcome =>
      rw [outcome] at done
      cases done
      rw [silent]
      rfl
  | removal c target failure silent outcome =>
      rw [outcome] at done
      cases done
      rw [silent]
      rfl
  | call c receiver target fine held called outcome =>
      rw [outcome] at done
      rw [called]
      cases answer : (o.reactor.runHandler (handlers c.kind) c.id receiver o.state).1 with
      | ok _ =>
          rw [answer] at done
          cases done
          rfl
      | error _ =>
          rw [answer] at done
          cases done

theorem Course.failed (course : o.Course) {handlers : Kind → Handler σ} {error : EventError}
    (failed : (o.outcome handlers).1 = .error error) : ∃ c receiver message, o.call? = some (c, receiver) ∧
      (o.reactor.runHandler (handlers c.kind) c.id receiver o.state).1 = .error message ∧
        error = .handler c.kind message := by
  cases course with
  | vain target silent outcome =>
      rw [outcome] at failed
      cases failed
  | removal c target failure silent outcome =>
      rw [outcome] at failed
      cases failed
  | call c receiver target fine held called outcome =>
      rw [outcome] at failed
      cases answer : (o.reactor.runHandler (handlers c.kind) c.id receiver o.state).1 with
      | ok _ =>
          rw [answer] at failed
          cases failed
      | error message =>
          rw [answer] at failed
          cases failed
          exact ⟨c, receiver, message, called, answer, rfl⟩

end Occasion

namespace Reactor

variable {gives : Nat → Endpoint → Prop} {handlers : Kind → Handler σ} {wait : Wait} {r r' q : Reactor}
  {c d : Connection} {state : σ} {o : Occasion σ} {before after : List (Occasion σ)} {sightings : List Sighting}

theorem Sighting.target?_of_found {s : Sighting} {id : Nat} (owner : s.owner = some id)
    (found : r.connection? id = some c) (active : c.IsActive) (own : c.fd.map Int.ofNat = some s.fd) :
    s.target? r = some c := by
  rw [Sighting.target?, owner, Option.bind_some, found]
  exact Option.filter_some_pos (decide_eq_true ⟨active, own⟩)

theorem Coherent.unregister_ok {loan : Option Loan} (coherent : r.Coherent loan) (found : r.connection? c.id = some c) :
    (r.unregister c.id).1 = .ok () := by
  obtain ⟨r', c', eq, found', -⟩ := coherent.checkActivate_deactivate found
  unfold Reactor.unregister
  rw [eq]
  dsimp only
  rw [found']

theorem Coherent.course (coherent : o.reactor.Coherent none) : o.Course := by
  cases target : o.sighting.target? o.reactor with
  | none =>
      refine .vain target (by simp [Occasion.call?, target]) fun handlers => ?_
      simp only [Occasion.outcome, Reactor.attend, target, coherent.unwatchStray]
  | some c =>
      have found := (Sighting.target?_eq_some target).2.1
      by_cases failure : o.IsFailure
      · refine .removal c target failure (by simp [Occasion.call?, failure]) fun handlers => ?_
        have done := coherent.unregister_ok found
        simp only [Occasion.outcome, Reactor.attend, target]
        rw [if_pos failure]
        generalize o.reactor.unregister c.id = result at done
        obtain ⟨answer, q⟩ := result
        cases done
        rfl
      · obtain ⟨receiver, held⟩ := Option.isSome_iff_exists.1 (coherent.present c (connection?_mem found))
        refine .call c receiver target failure held (by simp [Occasion.call?, failure, target, held]) fun handlers => ?_
        simp only [Occasion.outcome, Reactor.attend, target]
        rw [if_neg failure, held]
        dsimp only
        generalize o.reactor.runHandler (handlers c.kind) c.id receiver o.state = result
        obtain ⟨answer, q, next⟩ := result
        cases answer <;> rfl

theorem Coherent.outcome_of_call {receiver : Receiver} (coherent : o.reactor.Coherent none)
    (called : o.call? = some (c, receiver)) (handlers : Kind → Handler σ) : o.outcome handlers =
      (Occasion.answerTo c.kind (o.reactor.runHandler (handlers c.kind) c.id receiver o.state).1,
        (o.reactor.runHandler (handlers c.kind) c.id receiver o.state).2) := by
  cases Coherent.course coherent with
  | vain target silent outcome => cases silent.symm.trans called
  | removal c target failure silent outcome => cases silent.symm.trans called
  | call c receiver target fine held called' outcome =>
      cases called'.symm.trans called
      exact outcome handlers

def occasions (handlers : Kind → Handler σ) : List Sighting → Reactor → σ → List (Occasion σ)
  | [], _, _ => []
  | s :: rest, r, state =>
    ⟨s, r, state⟩ :: match r.attend handlers s state with
      | (.error _, _, _) => []
      | (.ok _, r, state) => occasions handlers rest r state

theorem occasions_ok {s : Sighting} {n : Nat} {next : σ} (eq : r.attend handlers s state = (.ok n, q, next)) :
    occasions handlers (s :: sightings) r state = ⟨s, r, state⟩ :: occasions handlers sightings q next := by
  rw [occasions, eq]

theorem prefix_occasions (handlers : Kind → Handler σ) (sightings : List Sighting) (r : Reactor) (state : σ) :
    (occasions handlers sightings r state).map (·.sighting) <+: sightings := by
  induction sightings generalizing r state with
  | nil => exact List.prefix_refl _
  | cons s rest ih =>
      rw [occasions, List.map_cons]
      apply (List.prefix_cons_inj s).2
      split
      · exact List.nil_prefix
      · exact ih _ _

theorem occasions_induction {I : Reactor → σ → Prop}
    (split : occasions handlers sightings r state = before ++ o :: after) (initial : I r state)
    (step : ∀ p ∈ before, I p.reactor p.state → I (p.outcome handlers).2.1 (p.outcome handlers).2.2) :
    I o.reactor o.state := by
  induction before generalizing sightings r state with
  | nil =>
      cases sightings with
      | nil => cases split
      | cons s rest =>
          cases split
          exact initial
  | cons p before ih =>
      cases sightings with
      | nil => cases split
      | cons s rest =>
          obtain ⟨rfl, tail⟩ := List.cons.inj split
          have next := step _ List.mem_cons_self initial
          simp only [Occasion.outcome] at next
          split at tail
          · simp at tail
          · rename_i eq
            rw [eq] at next
            exact ih tail next fun p mem => step p (List.mem_cons_of_mem _ mem)

theorem dispatch_induction {I : Reactor → σ → Prop} (initial : I r state) (calls : Nat)
    (step : ∀ p ∈ occasions handlers sightings r state, I p.reactor p.state →
      I (p.outcome handlers).2.1 (p.outcome handlers).2.2) :
    I (r.dispatch handlers sightings calls state).2.1 (r.dispatch handlers sightings calls state).2.2 := by
  induction sightings generalizing r state calls with
  | nil => exact initial
  | cons s rest ih =>
      have next := step _ List.mem_cons_self initial
      simp only [Occasion.outcome] at next
      rw [occasions] at step
      rw [Reactor.dispatch]
      split <;> rename_i eq <;> rw [eq] at next
      · exact next
      · rw [eq] at step
        exact ih next _ fun p mem => step p (List.mem_cons_of_mem _ mem)

theorem dispatch_history {I : List (Occasion σ) → Reactor → σ → Prop} (calls : Nat) {past : List (Occasion σ)}
    (start : I past r state)
    (step : ∀ past (o : Occasion σ), I past o.reactor o.state → I (past ++ [o]) (o.outcome handlers).2.1 (o.outcome handlers).2.2) :
    (∀ before o after, occasions handlers sightings r state = before ++ o :: after → I (past ++ before) o.reactor o.state) ∧
      I (past ++ occasions handlers sightings r state) (r.dispatch handlers sightings calls state).2.1
        (r.dispatch handlers sightings calls state).2.2 := by
  induction sightings generalizing past r state calls with
  | nil => exact ⟨fun before o after split => by simp [occasions] at split, by simpa [occasions, Reactor.dispatch] using start⟩
  | cons s sightings ih =>
      have next := step past ⟨s, r, state⟩ start
      unfold Occasion.outcome at next
      unfold occasions Reactor.dispatch
      dsimp only at next
      have first {after : List (Occasion σ)} (before : List (Occasion σ)) (o : Occasion σ) (later : List (Occasion σ))
          (rest : ∀ before o later, after = before ++ o :: later → I (past ++ [⟨s, r, state⟩] ++ before) o.reactor o.state)
          (split : ⟨s, r, state⟩ :: after = before ++ o :: later) : I (past ++ before) o.reactor o.state := by
        cases before with
        | nil =>
            obtain ⟨rfl, -⟩ := List.cons.inj split
            rwa [List.append_nil]
        | cons p before =>
            obtain ⟨rfl, tail⟩ := List.cons.inj split
            have here := rest before o later tail
            rwa [List.append_assoc] at here
      generalize r.attend handlers s state = result at next ⊢
      obtain ⟨error | n, q, after⟩ := result
      · exact ⟨fun before o later => first before o later fun before o later split => by simp at split, next⟩
      · obtain ⟨turns, final⟩ := ih (calls + n) next
        refine ⟨fun before o later => first before o later turns, ?_⟩
        rwa [List.append_assoc] at final

theorem dispatch_after {I : Reactor → σ → Prop}
    (split : occasions handlers sightings r state = before ++ o :: after) (calls : Nat)
    (here : I (o.outcome handlers).2.1 (o.outcome handlers).2.2)
    (step : ∀ p ∈ after, I p.reactor p.state → I (p.outcome handlers).2.1 (p.outcome handlers).2.2) :
    I (r.dispatch handlers sightings calls state).2.1 (r.dispatch handlers sightings calls state).2.2 := by
  induction before generalizing sightings r state calls with
  | nil =>
      cases sightings with
      | nil => cases split
      | cons s rest =>
          obtain ⟨rfl, tail⟩ := List.cons.inj split
          simp only [Occasion.outcome] at here
          rw [Reactor.dispatch]
          generalize r.attend handlers s state = result at tail here ⊢
          obtain ⟨error | n, q, next⟩ := result
          · exact here
          · cases tail
            exact dispatch_induction here _ step
  | cons p before ih =>
      cases sightings with
      | nil => cases split
      | cons s rest =>
          obtain ⟨rfl, tail⟩ := List.cons.inj split
          rw [Reactor.dispatch]
          generalize r.attend handlers s state = result at tail ⊢
          obtain ⟨error | n, q, next⟩ := result
          · simp at tail
          · exact ih tail _

theorem Coherent.dispatch_ok (coherent : r.Coherent none) (acts : ∀ kind, (handlers kind).Acts gives) {calls n : Nat}
    (done : (r.dispatch handlers sightings calls state).1 = .ok n) :
    (occasions handlers sightings r state).map (·.sighting) = sightings ∧
      n = calls + ((occasions handlers sightings r state).filterMap Occasion.call?).length := by
  induction sightings generalizing r state calls with
  | nil =>
      cases done
      exact ⟨rfl, rfl⟩
  | cons s rest ih =>
      have next := (coherent.attend acts s state).1
      have course := Coherent.course (o := ⟨s, r, state⟩) coherent
      have counted : ∀ {n}, (r.attend handlers s state).1 = .ok n → _ := course.counted
      rw [Reactor.dispatch] at done
      split at done <;> rename_i eq <;> rw [eq] at next counted <;> dsimp only at next
      · cases done
      · obtain ⟨all, number⟩ := ih next done
        rw [occasions_ok eq, List.map_cons, all, filterMap_cons_toList, List.length_append, ← counted rfl]
        exact ⟨rfl, by omega⟩

theorem dispatch_error {calls : Nat} {error : EventError}
    (failed : (r.dispatch handlers sightings calls state).1 = .error error) :
    ∃ before o, occasions handlers sightings r state = before ++ [o] ∧ (o.outcome handlers).1 = .error error := by
  induction sightings generalizing r state calls with
  | nil => cases failed
  | cons s rest ih =>
      rw [Reactor.dispatch] at failed
      split at failed <;> rename_i eq
      · cases failed
        refine ⟨[], ⟨s, r, state⟩, by rw [occasions, eq]; rfl, ?_⟩
        rw [Occasion.outcome, eq]
      · obtain ⟨before, o, split, answer⟩ := ih failed
        exact ⟨⟨s, r, state⟩ :: before, o, by rw [occasions_ok eq, split]; rfl, answer⟩

def noticed (wait : Wait) (r : Reactor) : List Sighting :=
  match wait r.host r.table.occupied with
  | .error _ => []
  | .ok answer =>
    if answer.ready = 0 then [] else ({ r with table := r.table.record answer.seen } : Reactor).sightings

def roused (wait : Wait) (r : Reactor) : Reactor :=
  match wait r.host r.table.occupied with
  | .error _ => r
  | .ok answer => if answer.ready = 0 then { r with table := r.table.record answer.seen } else r.awoken answer.seen

def turns (wait : Wait) (handlers : Kind → Handler σ) (r : Reactor) (state : σ) : List (Occasion σ) :=
  occasions handlers (r.noticed wait) (r.roused wait) state

def calls (wait : Wait) (handlers : Kind → Handler σ) (r : Reactor) (state : σ) : List (Connection × Receiver) :=
  (r.turns wait handlers state).filterMap Occasion.call?

theorem round_eq (wait : Wait) (handlers : Kind → Handler σ) (r : Reactor) (state : σ) :
    (r.round wait handlers state).2 = ((r.roused wait).dispatch handlers (r.noticed wait) 0 state).2 ∧
      ((∃ error, wait r.host r.table.occupied = .error error ∧ (r.round wait handlers state).1 = .error error) ∨
        (r.round wait handlers state).1 = ((r.roused wait).dispatch handlers (r.noticed wait) 0 state).1) := by
  unfold Reactor.round noticed roused
  cases wait r.host r.table.occupied with
  | error error => exact ⟨rfl, Or.inl ⟨error, rfl, rfl⟩⟩
  | ok answer =>
      by_cases nothing : answer.ready = 0
      · simp [nothing, Reactor.dispatch]
      · simp [nothing, awoken]

theorem roused_spec (wait : Wait) (r : Reactor) :
    (r.roused wait).connections = r.connections ∧ (r.roused wait).ids = r.ids ∧
      (r.Coherent none → (r.roused wait).Coherent none) := by
  unfold roused
  split
  · exact ⟨rfl, rfl, id⟩
  · split
    · exact ⟨rfl, rfl, fun coherent => coherent.record _⟩
    · exact ⟨rfl, rfl, fun coherent => coherent.awoken _⟩

theorem roused_host (wait : Wait) (r : Reactor) : (r.roused wait).host = r.host := by
  unfold roused
  split
  · rfl
  · split <;> rfl

theorem turns_induction {I : Reactor → σ → Prop} (wait : Wait) (state : σ) (start : I (r.roused wait) state)
    (step : ∀ p : Occasion σ, I p.reactor p.state → I (p.outcome handlers).2.1 (p.outcome handlers).2.2) :
    (∀ o ∈ r.turns wait handlers state, I o.reactor o.state) ∧
      I (r.round wait handlers state).2.1 (r.round wait handlers state).2.2 := by
  constructor
  · intro o mem
    obtain ⟨before, after, split⟩ := List.append_of_mem mem
    exact occasions_induction split start fun p _ => step p
  · rw [(round_eq wait handlers r state).1]
    exact dispatch_induction start 0 fun p _ => step p

theorem turns_history {I : List (Occasion σ) → Reactor → σ → Prop} (wait : Wait) (state : σ)
    (start : I [] (r.roused wait) state)
    (step : ∀ past (o : Occasion σ), I past o.reactor o.state → I (past ++ [o]) (o.outcome handlers).2.1 (o.outcome handlers).2.2) :
    (∀ before o after, r.turns wait handlers state = before ++ o :: after → I before o.reactor o.state) ∧
      I (r.turns wait handlers state) (r.round wait handlers state).2.1 (r.round wait handlers state).2.2 := by
  rw [(round_eq wait handlers r state).1]
  exact dispatch_history 0 start step

theorem Coherent.turn_induction {I : Reactor → Prop} (coherent : r.Coherent none)
    (acts : ∀ kind, (handlers kind).Acts gives) (wait : Wait) (state : σ) (start : I (r.roused wait))
    (step : ∀ (q : Reactor) s state, q.Coherent none → I q → I (q.attend handlers s state).2.1) :
    (∀ o ∈ r.turns wait handlers state, o.reactor.Coherent none ∧ I o.reactor) ∧
      I (r.round wait handlers state).2.1 := by
  have kept := turns_induction (I := fun q _ => q.Coherent none ∧ I q) wait state ⟨(roused_spec wait r).2.2 coherent, start⟩
    fun p both => ⟨(both.1.attend acts p.sighting p.state).1, step p.reactor p.sighting p.state both.1 both.2⟩
  exact ⟨kept.1, kept.2.2⟩

theorem mem_noticed {s : Sighting} (mem : s ∈ r.noticed wait) :
    ∃ seen, s ∈ ({ r with table := r.table.record seen } : Reactor).sightings := by
  unfold noticed at mem
  split at mem
  · cases mem
  · split at mem
    · cases mem
    · exact ⟨_, mem⟩

theorem Coherent.noticed_apart (coherent : r.Coherent none) (numbered : (r.connections.map (·.id)).Nodup)
    (wait : Wait) : (r.noticed wait).Pairwise fun s t => ∀ id, s.owner = some id → t.owner ≠ some id := by
  have one : ∀ seen, ({ r with table := r.table.record seen } : Reactor).sightings.Pairwise fun s t =>
      ∀ id, s.owner = some id → t.owner ≠ some id := by
    intro seen
    have distinct : ({ r with table := r.table.record seen } : Reactor).sightings.Pairwise fun s t => s.fd ≠ t.fd := by
      have slots := (coherent.record seen).books.tracks.occupied_nodup
      rw [List.Nodup, List.pairwise_map] at slots
      rw [sightings, Table.ready, List.map_map, List.pairwise_map]
      exact (slots.filter _).imp fun apart => apart
    refine distinct.imp_of_mem fun ms mt apart id owns owns' => ?_
    obtain ⟨c, mc, key, n, known, same⟩ := sightings_owner ms owns
    obtain ⟨d, md, key', m, known', same'⟩ := sightings_owner mt owns'
    obtain rfl : c = d := List.inj_on_of_nodup_map numbered mc md (key.trans key'.symm)
    rw [known] at known'
    cases known'
    exact apart (same.symm.trans same')
  unfold noticed
  split
  · exact .nil
  · split
    · exact .nil
    · exact one _

def Stays (d : Connection) (q : Reactor) : Prop :=
  ∃ c, q.connection? d.id = some c ∧ c.IsActive ∧ c.fd = d.fd

/-- No handler that was called on these occasions has unregistered, deactivated or moved the connection. -/
def Untouched (handlers : Kind → Handler σ) (before : List (Occasion σ)) (d : Connection) : Prop :=
  ∀ o ∈ before, o.call?.isSome → Stays d (o.outcome handlers).2.1

theorem prefix_turns (wait : Wait) (handlers : Kind → Handler σ) (r : Reactor) (state : σ) :
    (r.turns wait handlers state).map (·.sighting) <+: r.noticed wait :=
  prefix_occasions handlers _ _ _

theorem Coherent.turns_apart (coherent : r.Coherent none) (numbered : (r.connections.map (·.id)).Nodup) (wait : Wait)
    (handlers : Kind → Handler σ) (state : σ) : (r.turns wait handlers state).Pairwise fun o p =>
      ∀ id, o.sighting.owner = some id → p.sighting.owner ≠ some id :=
  List.pairwise_map.1 ((coherent.noticed_apart numbered wait).sublist (prefix_turns wait handlers r state).sublist)

theorem Coherent.turn (coherent : r.Coherent none) (acts : ∀ kind, (handlers kind).Acts gives)
    (split : r.turns wait handlers state = before ++ o :: after) :
    o.reactor.Coherent none ∧ Enrols r o.reactor ∧ Enrols o.reactor (o.outcome handlers).2.1 ∧
      Enrols (o.outcome handlers).2.1 (r.round wait handlers state).2.1 := by
  obtain ⟨connections, ids, roused⟩ := roused_spec wait r
  have start : (r.roused wait).Coherent none ∧ Enrols r (r.roused wait) :=
    ⟨roused coherent, .of_keys ⟨by rw [keys, connections]; rfl, ids⟩⟩
  obtain ⟨here, enrols⟩ := occasions_induction (I := fun q _ => q.Coherent none ∧ Enrols r q) split start
    fun p _ both => ⟨(both.1.attend acts _ _).1, both.2.trans (both.1.attend_enrols acts _ _)⟩
  have next := (here.attend acts o.sighting o.state).1
  refine ⟨here, enrols, here.attend_enrols acts _ _, ?_⟩
  rw [(round_eq wait handlers r state).1]
  exact (dispatch_after (I := fun q _ => q.Coherent none ∧ Enrols (o.outcome handlers).2.1 q) split 0 ⟨next, .refl _⟩
    fun p _ both => ⟨(both.1.attend acts _ _).1, both.2.trans (both.1.attend_enrols acts _ _)⟩).2

theorem turn_owner {id : Nat} (mem : o ∈ r.turns wait handlers state) (owner : o.sighting.owner = some id) :
    ∃ d ∈ r.connections, d.id = id ∧ ∃ n : Nat, d.fd = some n ∧ n = o.sighting.fd := by
  have noticed := (prefix_turns wait handlers r state).subset (List.mem_map_of_mem mem)
  obtain ⟨seen, among⟩ := mem_noticed noticed
  exact sightings_owner among owner

theorem connection?_of_nodup (numbered : (r.connections.map (·.id)).Nodup) (mem : d ∈ r.connections) :
    r.connection? d.id = some d := by
  have present : d.id ∈ r.keys.map Prod.fst := by
    rw [map_fst_keys]
    exact List.mem_map_of_mem mem
  obtain ⟨c, found⟩ := exists_connection? present
  obtain rfl : c = d := List.inj_on_of_nodup_map numbered (connection?_mem found) mem (connection?_split found).1
  exact found

theorem Coherent.stays (coherent : r.Coherent none) (numbered : (r.connections.map (·.id)).Nodup)
    (acts : ∀ kind, (handlers kind).Acts gives) (split : r.turns wait handlers state = before ++ o :: after)
    (mem : d ∈ r.connections) (active : d.IsActive) (owner : o.sighting.owner = some d.id)
    (untouched : Untouched handlers before d) : Stays d o.reactor := by
  obtain ⟨connections, -, roused⟩ := roused_spec wait r
  have apart := coherent.turns_apart numbered wait handlers state
  rw [split, List.pairwise_append] at apart
  have start : (r.roused wait).Coherent none ∧ Stays d (r.roused wait) := by
    refine ⟨roused coherent, d, ?_, active, rfl⟩
    rw [connection?, connections]
    exact connection?_of_nodup numbered mem
  refine (occasions_induction (I := fun q _ => q.Coherent none ∧ Stays d q) split start fun p among both => ?_).2
  refine ⟨(both.1.attend acts _ _).1, ?_⟩
  cases Coherent.course both.1 with
  | vain target silent outcome =>
      rw [outcome]
      exact both.2
  | removal c target failure silent outcome =>
      obtain ⟨b, found, still⟩ := both.2
      have other : c.id ≠ d.id := by
        intro same
        refine apart.2.2 p among o List.mem_cons_self c.id (Sighting.target?_eq_some target).1 ?_
        rw [owner, same]
      refine ⟨b, ?_, still⟩
      rw [outcome, connection?, (both.1.unregister_connections c.id).1, find?_eraseP other]
      exact found
  | call c receiver target fine held called outcome =>
      exact untouched p among (by rw [called]; rfl)

theorem mem_calls {id : Nat} (mem : id ∈ (r.calls wait handlers state).map (·.1.id)) :
    ∃ o ∈ r.turns wait handlers state, ∃ c receiver, o.call? = some (c, receiver) ∧ c.id = id := by
  obtain ⟨⟨c, receiver⟩, called, rfl⟩ := List.mem_map.1 mem
  obtain ⟨o, among, call⟩ := List.mem_filterMap.1 called
  exact ⟨o, among, c, receiver, call, rfl⟩

theorem Coherent.calls_nodup (coherent : r.Coherent none) (numbered : (r.connections.map (·.id)).Nodup) (wait : Wait)
    (handlers : Kind → Handler σ) (state : σ) : ((r.calls wait handlers state).map (·.1.id)).Nodup := by
  rw [List.Nodup, List.pairwise_map, calls, List.pairwise_filterMap]
  refine (coherent.turns_apart numbered wait handlers state).imp ?_
  rintro o p apart ⟨c, receiver⟩ called ⟨d, receiver'⟩ called' same
  refine apart c.id (Occasion.call?_owner called) ?_
  rw [Occasion.call?_owner called']
  exact congrArg some same.symm

theorem Coherent.silent_owner (coherent : r.Coherent none) (numbered : (r.connections.map (·.id)).Nodup)
    (split : r.turns wait handlers state = before ++ o :: after) {id : Nat} (owner : o.sighting.owner = some id)
    (silent : o.call? = none) : id ∉ (r.calls wait handlers state).map (·.1.id) := by
  intro mem
  obtain ⟨p, among, c, receiver, called, rfl⟩ := mem_calls mem
  have own := Occasion.call?_owner called
  have apart := coherent.turns_apart numbered wait handlers state
  rw [split] at among apart
  obtain ⟨-, later, earlier⟩ := List.pairwise_append.1 apart
  rcases List.mem_append.1 among with sooner | rest
  · exact earlier p sooner o List.mem_cons_self c.id own owner
  · rcases List.mem_cons.1 rest with rfl | later'
    · rw [silent] at called
      cases called
    · exact (List.pairwise_cons.1 later).1 p later' c.id owner own

end Reactor

end TraceGate
