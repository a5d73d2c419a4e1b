import TraceGate.Proofs.Reactor.Lone
import TraceGate.Proofs.Reactor.Turns

namespace TraceGate

open Connection Relation

variable {σ : Type}

namespace Reactor

variable {gives : Nat → Endpoint → Prop} {handlers : Kind → Handler σ} {wait : Wait} {r r' q : Reactor}
  {c d : Connection} {state : σ} {o : Occasion σ} {before after : List (Occasion σ)} {sightings : List Sighting}

structure Owns (origin : Nat → Endpoint → Prop) (loan : Option Loan) (r : Reactor) : Prop where
  held : ∀ c ∈ r.connections, ∀ e, c.endpoint? = some e → origin c.id e
  lent : ∀ l, loan = some l → ∀ e, l.endpoint = some e → origin l.id e

variable {origin : Nat → Endpoint → Prop} {loan loan' : Option Loan}

theorem Owns.custody (owns : Owns origin loan r) (custody : Custody (fun id _ e => origin id e) r r')
    (lent : ∀ l, loan' = some l → ∀ e, l.endpoint = some e → origin l.id e) : Owns origin loan' r' := by
  refine ⟨fun c mem e eq => ?_, lent⟩
  rcases custody.held c mem e eq with ⟨d, mem, id, -, eq⟩ | new
  · rw [← id]
    exact owns.held d mem e eq
  · exact new

theorem Owns.step {id : Nat} {a b : Scene σ} (step : Scene.Step gives id a b) (may : ∀ id e, gives id e → origin id e)
    (owns : Owns origin (some (a.loan id)) a.reactor) : Owns origin (some (b.loan id)) b.reactor := by
  cases step with
  | operation operation => exact owns.custody (operation.custody may) owns.lent
  | outside elapses isOpen given =>
      refine ⟨fun c mem => ?_, ?_⟩
      · rw [elapses.rest] at mem
        exact owns.held c mem
      · rintro _ ⟨⟩ e eq
        rcases given e eq with same | ⟨-, new⟩
        · exact owns.lent _ rfl e same
        · exact may id e new

theorem Owns.attend (owns : Owns origin none r) (coherent : r.Coherent none)
    (acts : ∀ kind, (handlers kind).Acts gives) (may : ∀ id e, gives id e → origin id e) (s : Sighting) (state : σ) :
    Owns origin none (r.attend handlers s state).2.1 := by
  have nobody : ∀ l, (none : Option Loan) = some l → ∀ e, l.endpoint = some e → origin l.id e := by
    rintro _ ⟨⟩
  refine coherent.attend_induction acts owns ?_ ?_ (fun _ _ _ step _ owns => owns.step step may) ?_ s state
  · exact fun id => owns.custody (Custody.unregister r id) nobody
  · intro c mem receiver held
    refine owns.custody (Custody.lend r c.id) ?_
    rintro _ ⟨⟩ e eq
    apply owns.held c mem e
    rw [endpoint?_of_receiver held]
    exact eq
  · exact fun id receiver q owns =>
      owns.custody (Custody.restore q id receiver fun _ _ _ e eq => owns.lent _ rfl e eq) nobody

theorem Coherent.round_owns (coherent : r.Coherent none) (acts : ∀ kind, (handlers kind).Acts gives) (wait : Wait)
    (state : σ) : Owns (fun id e => (∃ d ∈ r.connections, d.id = id ∧ d.endpoint? = some e) ∨ gives id e) none
      (r.round wait handlers state).2.1 := by
  refine (coherent.turn_induction acts wait state ⟨fun c mem e eq => ?_, ?_⟩
    fun _ s state coherent owns => owns.attend coherent acts (fun _ _ => Or.inr) s state).2
  · rw [(roused_spec wait r).1] at mem
    exact Or.inl ⟨c, mem, rfl, eq⟩
  · rintro _ ⟨⟩

theorem restore_receiver {id : Nat} {receiver : Receiver} {b : Connection}
    (found : (q.restore id receiver).connection? id = some b) : b.receiver = some receiver := by
  unfold Reactor.restore at found
  split at found
  · rename_i absent
    exact absurd (absent.symm.trans found) (by simp)
  · rename_i c known
    have unwatched (p : Reactor) : (p.unwatchOf c).connection? id = p.connection? id := by
      unfold unwatchOf connection?
      cases c.fd <;> rfl
    have back : ((q.discardHeld c).update id (·.hold receiver)).connection? id = some (c.hold receiver) :=
      update_connection? (fun _ => rfl) known
    dsimp only at found
    split at found
    · rw [← unwatched] at back
      split at found
      · cases back.symm.trans found
        rfl
      · rw [update_connection? (f := Connection.pause) (fun _ => rfl) back] at found
        cases found
        rfl
    · cases back.symm.trans found
      rfl

/-- What a round with any handlers keeps to. -/
structure Fair (gives : Nat → Endpoint → Prop) (wait : Wait) (handlers : Kind → Handler σ) (r : Reactor) (state : σ) :
    Prop where
  order : (r.turns wait handlers state).map (·.sighting) <+: r.noticed wait
  counted : ∀ n, (r.round wait handlers state).1 = .ok n →
    (r.turns wait handlers state).map (·.sighting) = r.noticed wait ∧ n = (r.calls wait handlers state).length
  failure : ∀ error, (r.round wait handlers state).1 = .error error →
    wait r.host r.table.occupied = .error error ∨
    ∃ before o c receiver message, r.turns wait handlers state = before ++ [o] ∧ o.call? = some (c, receiver) ∧
      (o.reactor.runHandler (handlers c.kind) c.id receiver o.state).1 = .error message ∧
        error = .handler c.kind message
  once : ((r.calls wait handlers state).map (·.1.id)).Nodup
  own : ∀ o ∈ r.turns wait handlers state, ∀ c receiver, o.call? = some (c, receiver) →
    o.reactor.connection? c.id = some c ∧ c.IsActive ∧ c.receiver = some receiver ∧
      (∃ d ∈ r.connections, d.id = c.id ∧ d.kind = c.kind) ∧
        (o.outcome handlers).2 = (o.reactor.runHandler (handlers c.kind) c.id receiver o.state).2
  silent : ∀ o ∈ r.turns wait handlers state, o.call? = none →
    (∀ others, o.outcome others = o.outcome handlers) ∧ (o.outcome handlers).1 = .ok 0 ∧
      ∀ d ∈ o.reactor.connections, o.sighting.owner ≠ some d.id → d ∈ (o.outcome handlers).2.1.connections
  /-- Connections that come in the round are neither called nor removed. -/
  late : ∀ n, (r.round wait handlers state).2.1.ids = r.ids.after n → ∀ id ∈ r.ids.takeMany n,
    id ∉ (r.calls wait handlers state).map (·.1.id) ∧
      ∀ o ∈ r.turns wait handlers state, o.sighting.owner ≠ some id
  idle : ∀ o ∈ r.turns wait handlers state, ∀ id, o.sighting.owner = some id →
    (∀ c, o.reactor.connection? id = some c → ¬(c.IsActive ∧ c.fd.map Int.ofNat = some o.sighting.fd)) →
      o.outcome handlers = (.ok 0, o.reactor, o.state) ∧ id ∉ (r.calls wait handlers state).map (·.1.id)
  /-- A connection that was seen and that no handler has touched is removed if it has failed, and else is called, unless a
  handler fails before. -/
  served : ∀ d ∈ r.connections, d.IsActive → ∀ s ∈ r.noticed wait, d.fd.map Int.ofNat = some s.fd →
    (s ∉ (r.turns wait handlers state).map (·.sighting) ∧
      ∃ kind message, (r.round wait handlers state).1 = .error (.handler kind message)) ∨
    ∃ before o after, r.turns wait handlers state = before ++ o :: after ∧ o.sighting = s ∧
      (Untouched handlers before d →
        (o.IsFailure → d.id ∉ (r.calls wait handlers state).map (·.1.id) ∧
          d.id ∉ (r.round wait handlers state).2.1.connections.map (·.id)) ∧
        (¬o.IsFailure → (∃ c receiver, o.call? = some (c, receiver) ∧ c.id = d.id) ∧
          ((r.calls wait handlers state).map (·.1.id)).count d.id = 1))
  returned : ∀ o ∈ r.turns wait handlers state, ∀ c receiver, o.call? = some (c, receiver) →
    ∀ b, (o.outcome handlers).2.1.connection? c.id = some b →
      b.receiver = some ((handlers c.kind c.id).run.run (o.reactor.opening c.id receiver o.state)).2.receiver
  /-- In the end every connection has a receiver, with an endpoint that it had before or was given. -/
  held : ∀ c ∈ (r.round wait handlers state).2.1.connections, ∃ receiver, c.receiver = some receiver ∧
    c.fd = receiver.fd? ∧ ∀ e, receiver.endpoint = some e →
      (∃ d ∈ r.connections, d.id = c.id ∧ d.endpoint? = some e) ∨ gives c.id e

section

variable (coherent : r.Coherent none) (acts : ∀ kind, (handlers kind).Acts gives)
  (numbered : Unrepeated r (r.round wait handlers state).2.1)

include coherent acts

theorem Coherent.turn_course (mem : o ∈ r.turns wait handlers state) : o.Course := by
  obtain ⟨before, after, split⟩ := List.append_of_mem mem
  exact Coherent.course (coherent.turn acts split).1

theorem Coherent.round_counted {n : Nat} (done : (r.round wait handlers state).1 = .ok n) :
    (r.turns wait handlers state).map (·.sighting) = r.noticed wait ∧ n = (r.calls wait handlers state).length := by
  rcases (round_eq wait handlers r state).2 with ⟨error, -, eq⟩ | eq
  · rw [eq] at done
    cases done
  · rw [eq] at done
    obtain ⟨all, number⟩ := ((roused_spec wait r).2.2 coherent).dispatch_ok acts done
    rw [Nat.zero_add] at number
    exact ⟨all, number⟩

theorem Coherent.round_failure {error : EventError} (failed : (r.round wait handlers state).1 = .error error) :
    wait r.host r.table.occupied = .error error ∨
    ∃ before o c receiver message, r.turns wait handlers state = before ++ [o] ∧ o.call? = some (c, receiver) ∧
      (o.reactor.runHandler (handlers c.kind) c.id receiver o.state).1 = .error message ∧
        error = .handler c.kind message := by
  rcases (round_eq wait handlers r state).2 with ⟨error', waiting, eq⟩ | eq <;> rw [eq] at failed
  · cases failed
    exact Or.inl waiting
  · obtain ⟨before, o, split, answer⟩ := dispatch_error failed
    have mem : o ∈ r.turns wait handlers state := by
      rw [turns, split]
      simp
    obtain ⟨c, receiver, message, called⟩ := (coherent.turn_course acts mem).failed answer
    exact Or.inr ⟨before, o, c, receiver, message, split, called⟩

theorem Coherent.round_silent (mem : o ∈ r.turns wait handlers state) (silent : o.call? = none) :
    (∀ others, o.outcome others = o.outcome handlers) ∧ (o.outcome handlers).1 = .ok 0 ∧
      ∀ d ∈ o.reactor.connections, o.sighting.owner ≠ some d.id → d ∈ (o.outcome handlers).2.1.connections := by
  obtain ⟨before, after, split⟩ := List.append_of_mem mem
  cases coherent.turn_course acts mem with
  | vain target silent outcome =>
      rw [outcome handlers]
      exact ⟨outcome, rfl, fun d mem _ => mem⟩
  | removal c target failure silent outcome =>
      rw [outcome handlers]
      refine ⟨outcome, rfl, fun d mem other => ?_⟩
      rw [((coherent.turn acts split).1.unregister_connections c.id).1]
      refine (List.mem_eraseP_of_neg ?_).2 mem
      rintro same
      apply other
      rw [(Sighting.target?_eq_some target).1, beq_iff_eq.1 same]
  | call c receiver target fine held called outcome =>
      rw [silent] at called
      cases called

theorem Coherent.round_idle (numbered : (r.connections.map (·.id)).Nodup) (mem : o ∈ r.turns wait handlers state) {id : Nat}
    (owner : o.sighting.owner = some id)
    (elsewhere : ∀ c, o.reactor.connection? id = some c → ¬(c.IsActive ∧ c.fd.map Int.ofNat = some o.sighting.fd)) :
    o.outcome handlers = (.ok 0, o.reactor, o.state) ∧ id ∉ (r.calls wait handlers state).map (·.1.id) := by
  have absent : ∀ c, o.sighting.target? o.reactor ≠ some c := by
    intro c target
    obtain ⟨own, found, active, same⟩ := Sighting.target?_eq_some target
    rw [owner] at own
    cases own
    exact elsewhere c found ⟨active, same⟩
  obtain ⟨before, after, split⟩ := List.append_of_mem mem
  cases coherent.turn_course acts mem with
  | vain target silent outcome => exact ⟨outcome handlers, coherent.silent_owner numbered split owner silent⟩
  | removal c target failure silent outcome => exact absurd target (absent c)
  | call c receiver target fine held called outcome => exact absurd target (absent c)

theorem Coherent.round_turn (mem : d ∈ r.connections) (active : d.IsActive) {s : Sighting} (seen : s ∈ r.noticed wait)
    (own : d.fd.map Int.ofNat = some s.fd) :
    s.owner = some d.id ∧
      ((s ∉ (r.turns wait handlers state).map (·.sighting) ∧
        ∃ kind message, (r.round wait handlers state).1 = .error (.handler kind message)) ∨
      ∃ before o after, r.turns wait handlers state = before ++ o :: after ∧ o.sighting = s) := by
  refine ⟨?_, ?_⟩
  · obtain ⟨receiver, e, held, endpoint, -, known⟩ := coherent.backed d mem active
    have holds : d.endpoint? = some e := by rw [endpoint?_of_receiver held, endpoint]
    obtain ⟨flags, among⟩ := mem_noticed seen
    obtain ⟨⟨fd, seen⟩, -, rfl⟩ := List.mem_map.1 among
    rw [known, Option.map_some, Option.some_inj] at own
    subst own
    exact coherent.findDescriptor?_eq mem holds known
  · by_cases came : s ∈ (r.turns wait handlers state).map (·.sighting)
    · obtain ⟨o, among, rfl⟩ := List.mem_map.1 came
      obtain ⟨before, after, split⟩ := List.append_of_mem among
      exact Or.inr ⟨before, o, after, split, rfl⟩
    · refine Or.inl ⟨came, ?_⟩
      cases outcome : (r.round wait handlers state).1 with
      | ok n =>
          rw [(coherent.round_counted acts outcome).1] at came
          exact absurd seen came
      | error error =>
          rcases coherent.round_failure acts outcome with waiting | ⟨_, _, c, _, message, _, _, _, rfl⟩
          · rw [noticed, waiting] at seen
            cases seen
          · exact ⟨c.kind, message, rfl⟩

include numbered

theorem Coherent.turn_unrepeated (mem : o ∈ r.turns wait handlers state) :
    Unrepeated r o.reactor ∧ (o.reactor.connections.map (·.id)).Nodup := by
  obtain ⟨before, after, split⟩ := List.append_of_mem mem
  obtain ⟨-, first, here, second⟩ := coherent.turn acts split
  have unrepeated := numbered.before first (here.trans second)
  exact ⟨unrepeated, unrepeated.nodup first⟩

theorem Coherent.round_own {receiver : Receiver} (mem : o ∈ r.turns wait handlers state)
    (called : o.call? = some (c, receiver)) :
    o.reactor.connection? c.id = some c ∧ c.IsActive ∧ c.receiver = some receiver ∧
      (∃ d ∈ r.connections, d.id = c.id ∧ d.kind = c.kind) ∧
        (o.outcome handlers).2 = (o.reactor.runHandler (handlers c.kind) c.id receiver o.state).2 := by
  obtain ⟨target, held⟩ := Occasion.call?_eq_some called
  obtain ⟨owner, found, active, -⟩ := Sighting.target?_eq_some target
  obtain ⟨before, after, split⟩ := List.append_of_mem mem
  obtain ⟨here, first, -⟩ := coherent.turn acts split
  refine ⟨found, active, held, ?_, ?_⟩
  · obtain ⟨d, origin, key, -⟩ := turn_owner mem owner
    have old : c.id ∈ r.connections.map (·.id) := key ▸ List.mem_map_of_mem origin
    obtain ⟨d, origin, same⟩ := (coherent.turn_unrepeated acts numbered mem).1.key first (connection?_mem found) old
    exact ⟨d, origin, congrArg Prod.fst same, congrArg Prod.snd same⟩
  · rw [Coherent.outcome_of_call here called]

omit coherent acts in
theorem round_late {n : Nat} (taken : (r.round wait handlers state).2.1.ids = r.ids.after n) {id : Nat}
    (new : id ∈ r.ids.takeMany n) : id ∉ (r.calls wait handlers state).map (·.1.id) ∧
      ∀ o ∈ r.turns wait handlers state, o.sighting.owner ≠ some id := by
  obtain ⟨m, counter, nodup⟩ := numbered
  obtain rfl : m = n := Ids.eq_of_after (counter.symm.trans taken)
  have never : ∀ o ∈ r.turns wait handlers state, o.sighting.owner ≠ some id := by
    intro o mem owner
    obtain ⟨d, origin, key, -⟩ := turn_owner mem owner
    exact (List.nodup_append.1 nodup).2.2 d.id (List.mem_map_of_mem origin) id new key
  refine ⟨fun called => ?_, never⟩
  obtain ⟨o, mem, c, receiver, call, rfl⟩ := mem_calls called
  exact never o mem (Occasion.call?_owner call)

theorem Coherent.round_served (distinct : (r.connections.map (·.id)).Nodup) (mem : d ∈ r.connections)
    (active : d.IsActive) (split : r.turns wait handlers state = before ++ o :: after)
    (own : d.fd.map Int.ofNat = some o.sighting.fd) (owner : o.sighting.owner = some d.id)
    (untouched : Untouched handlers before d) :
    (o.IsFailure → d.id ∉ (r.calls wait handlers state).map (·.1.id) ∧
      d.id ∉ (r.round wait handlers state).2.1.connections.map (·.id)) ∧
    (¬o.IsFailure → (∃ c receiver, o.call? = some (c, receiver) ∧ c.id = d.id) ∧
      ((r.calls wait handlers state).map (·.1.id)).count d.id = 1) := by
  have among : o ∈ r.turns wait handlers state := by
    rw [split]
    exact List.mem_append_right _ List.mem_cons_self
  obtain ⟨c, found, active', still⟩ := coherent.stays distinct acts split mem active owner untouched
  obtain ⟨here, first, leaves, second⟩ := coherent.turn acts split
  have target : o.sighting.target? o.reactor = some c :=
    Sighting.target?_of_found owner found active' (by rw [still, own])
  have same : c.id = d.id := (connection?_split found).1
  cases coherent.turn_course acts among with
  | vain target' silent outcome => cases target'.symm.trans target
  | removal c' target' failure silent outcome =>
      cases target'.symm.trans target
      refine ⟨fun _ => ⟨coherent.silent_owner distinct split owner silent, ?_⟩, fun fine => absurd failure fine⟩
      refine numbered.gone (first.trans leaves) second (List.mem_map_of_mem mem) fun left => ?_
      obtain ⟨b, left, key⟩ := List.mem_map.1 left
      rw [outcome, (here.unregister_connections c.id).1] at left
      exact ne_of_mem_eraseP (coherent.turn_unrepeated acts numbered among).2 left (key.trans same.symm)
  | call c' receiver target' fine held called outcome =>
      cases target'.symm.trans target
      refine ⟨fun failure => absurd failure fine, fun _ => ⟨⟨c, receiver, called, same⟩, ?_⟩⟩
      apply List.count_eq_one_of_mem (coherent.calls_nodup distinct wait handlers state)
      rw [← same]
      exact List.mem_map_of_mem (f := fun call : Connection × Receiver => call.1.id)
        (List.mem_filterMap.2 ⟨o, among, called⟩)

end

/-- A round is fair if no number is given twice in it. -/
theorem Reachable.round_fair (reachable : r.Reachable) (acts : ∀ kind, (handlers kind).Acts gives) (wait : Wait) (state : σ)
    (numbered : Unrepeated r (r.round wait handlers state).2.1) : Fair gives wait handlers r state := by
  have coherent := reachable.coherent
  have distinct : (r.connections.map (·.id)).Nodup := by
    obtain ⟨n, -, nodup⟩ := numbered
    exact (List.nodup_append.1 nodup).1
  exact {
    order := prefix_turns wait handlers r state
    counted := fun n => coherent.round_counted acts
    failure := fun error => coherent.round_failure acts
    once := coherent.calls_nodup distinct wait handlers state
    own := fun o mem c receiver => coherent.round_own acts numbered mem
    silent := fun o mem => coherent.round_silent acts mem
    late := fun n taken id => round_late numbered taken
    idle := fun o mem id => coherent.round_idle acts distinct mem
    served := by
      intro d mem active s seen own
      obtain ⟨owner, missed | ⟨before, o, after, split, rfl⟩⟩ := coherent.round_turn acts mem active seen own
      · exact Or.inl missed
      · exact Or.inr ⟨before, o, after, split, rfl, coherent.round_served acts numbered distinct mem active split own owner⟩
    returned := by
      intro o mem c receiver called b found
      rw [(coherent.round_own acts numbered mem called).2.2.2.2, runHandler_snd] at found
      exact restore_receiver found
    held := by
      intro c mem
      have after := (coherent.round wait acts state).1
      obtain ⟨receiver, held⟩ := Option.isSome_iff_exists.1 (after.present c mem)
      refine ⟨receiver, held, (after.books.settled c mem).fd receiver held, fun e endpoint => ?_⟩
      apply (coherent.round_owns acts wait state).held c mem e
      rw [endpoint?_of_receiver held, endpoint] }

end Reactor

namespace Dropping

def drop (_ : Kind) : Handler Unit := fun _ => Turn.reactor fun r => ((), (r.unregister 2).2)

theorem drop_acts (kind : Kind) : (drop kind).Acts anyGift := by
  intro id s _
  exact .single (.operation (.unregister 2))

def wait : Wait := Round.wait [(3, Flags.input), (4, Flags.input)]

theorem second_not_called : Relisting.start.Fair anyGift wait drop () ∧
    (Relisting.start.calls wait drop ()).map (·.1.id) = [1] := by
  have numbered : Relisting.start.Unrepeated (Relisting.start.round wait drop ()).2.1 := ⟨0, by decide, by decide⟩
  exact ⟨Reactor.Reachable.round_fair Relisting.start_reachable drop_acts wait () numbered, by decide⟩

end Dropping

end TraceGate
