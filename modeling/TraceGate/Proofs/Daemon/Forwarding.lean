import TraceGate.Proofs.Daemon.Keeping
import TraceGate.Proofs.Daemon.Peers
import TraceGate.Proofs.Reactor.Delivering

namespace TraceGate

open Connection Handlers Reactor

namespace Host

structure Reads (h : Host) (e : Endpoint) (h' : Host) : Prop where
  outbound : ∀ n, h'.outbound? n = h.outbound? n
  stored : ∀ node, h'.storedBytes node = h.storedBytes node
  stream : ∀ e', h'.stream? e' = h.stream? e'
  file : ∀ e', e' ≠ e → h'.file? e' = h.file? e'

theorem Reads.faults (h : Host) (e : Endpoint) (faults : List (Option Fault)) : Reads h e { h with faults } :=
  ⟨fun _ => rfl, fun _ => rfl, fun _ => rfl, fun _ _ => rfl⟩

theorem read_reads (h : Host) (e : Endpoint) : Reads h e (h.read e).2 := by
  have refl : Reads h e h := .faults h e h.faults
  unfold read
  split
  · exact refl
  · rename_i n _
    refine attempt_leaves (fun faults => ?_) fun _ => Reads.faults h e
    split
    · exact .faults h e faults
    · split
      · exact .faults h e faults
      · exact ⟨outbound?_updateLine _ n fun _ => rfl, fun _ => rfl, fun _ => rfl, fun _ _ => rfl⟩
  · rename_i node place own
    refine attempt_leaves (fun faults => ?_) fun _ => Reads.faults h e
    have content (place' : Nat) (e' : Endpoint) : (({ h with faults } : Host).setContent e (.file node place')).content? e' =
        if e' = e then (h.content? e').map fun _ => .file node place' else h.content? e' := content?_setContent _ e _ e'
    refine ⟨fun _ => rfl, fun _ => rfl, fun e' => ?_, fun e' other => ?_⟩
    · rw [stream?, content]
      split
      · rename_i same
        rw [stream?, same, own]
        rfl
      · rfl
    · rw [file?, content, if_neg other, file?]
  · exact refl

end Host

namespace Handlers

variable {id : Nat} {s : Scene State}

theorem reading_cases (s : Scene State) : reading s ≠ .filled ∧ (filled s).receiver = s.receiver ∨
    reading s = .filled ∧ ∃ e bytes, s.receiver.endpoint = some e ∧ (s.reactor.host.read e).1 = .ok bytes ∧ bytes ≠ [] ∧
      filled s = ⟨⟨some e, s.receiver.buffer ++ bytes⟩, { s.reactor with host := (s.reactor.host.read e).2 }, s.state⟩ := by
  obtain ⟨⟨_ | e, buffer⟩, reactor, state⟩ := s
  · exact Or.inl ⟨by rintro ⟨⟩, rfl⟩
  · unfold reading filled Receiver.fill
    dsimp only
    rcases eq : reactor.host.read e with ⟨error | _ | ⟨b, bytes⟩, host⟩
    · cases error <;> exact Or.inl ⟨by rintro ⟨⟩, rfl⟩
    · exact Or.inl ⟨by rintro ⟨⟩, rfl⟩
    · exact Or.inr ⟨rfl, e, b :: bytes, rfl, congrArg Prod.fst eq, List.cons_ne_nil _ _, by rw [eq]⟩

theorem forward_run (id : Nat) (read : reading s = .filled) : (forward id).run.run s =
    (.ok (), { receiver := (filled s).receiver.consume (filled s).receiver.buffer.length,
               reactor := ((filled s).reactor.sendTo consumers (filled s).receiver.buffer).2,
               state := { s.state with stats := { s.state.stats with
                 appBytes := s.state.stats.appBytes + (filled s).receiver.buffer.length,
                 forwarded := s.state.stats.forwarded +
                   ((filled s).reactor.sendTo consumers (filled s).receiver.buffer).1 } } }) := by
  rw [forward, read_run, read]
  rfl

theorem dropPeer_leaves_rest (id : Nat) (s : Scene State) : ((dropPeer id).run.run s).2.receiver = s.receiver ∧
    ((dropPeer id).run.run s).2.state = s.state := by
  have run : (dropPeer id).run.run s = (Turn.orFail EventError.message (s.reactor.unregister id).1 : Turn State Unit).run.run
    { s with reactor := (s.reactor.unregister id).2 } := rfl
  rw [run]
  cases (s.reactor.unregister id).1 <;> exact ⟨rfl, rfl⟩

theorem forward_unread (id : Nat) (unread : reading s ≠ .filled) :
    ((forward id).run.run s).2.receiver = s.receiver ∧ ((forward id).run.run s).2.state = s.state := by
  have same := ((reading_cases s).resolve_right fun read => unread read.1).2
  rw [forward, read_run]
  cases read : reading s with
  | filled => exact absurd read unread
  | nothing => exact ⟨same, rfl⟩
  | lost =>
      obtain ⟨receiver, state⟩ := dropPeer_leaves_rest id (filled s)
      exact ⟨receiver.trans same, state⟩

end Handlers

/-- A call of an application's handler that reads something. -/
structure Forwarding where
  caller : Connection
  receiver : Receiver
  reactor : Reactor
  state : State

namespace Forwarding

def scene (f : Forwarding) : Scene State := f.reactor.opening f.caller.id f.receiver f.state

def input (f : Forwarding) : Bytes := (filled f.scene).receiver.buffer

def log (f : Forwarding) : List Attempt := attempts f.input (f.reactor.targets consumers) (filled f.scene).reactor.host

def delivered (f : Forwarding) : Nat := f.log.countP (·.result.isOk)

/-- What comes of the turn. -/
structure Done (f : Forwarding) (outcome : Except EventError Nat × Reactor × State) : Prop where
  returns : outcome.1 = .ok 1
  reads : ∃ e bytes, f.receiver.endpoint = some e ∧ (f.reactor.host.read e).1 = .ok bytes ∧ bytes ≠ [] ∧
    f.input = f.receiver.buffer ++ bytes
  targets : f.log.map (·.target) = f.reactor.targets consumers
  took : ∀ a ∈ f.log, Host.Took f.input a.result a.taken
  writes : ∃ host, Writes f.input (filled f.scene).reactor.host f.log host ∧ Host.Shrinks host outcome.2.1.host
  outbound : ∀ n, outcome.2.1.host.outbound? n = (f.reactor.host.outbound? n).map
    (· ++ f.log.flatMap fun a => if a.target.endpoint?.bind f.reactor.host.stream? = some n then a.taken else [])
  stored : ∀ node, outcome.2.1.host.storedBytes node = f.log.foldl
    (fun old a => Host.laid (a.target.endpoint?.bind f.reactor.host.file?) node a.taken old) (f.reactor.host.storedBytes node)
  places : ∀ e, outcome.2.1.host.IsOpen e → f.receiver.endpoint ≠ some e → outcome.2.1.host.file? e =
    (f.reactor.host.file? e).map fun (node, place) => (node, place + (pieces f.log e).length)
  connections : outcome.2.1.connections = updateFirst (·.id == f.caller.id) (·.hold ⟨f.receiver.endpoint, []⟩)
    (f.reactor.connections.filter (· ∉ refused f.log))
  table : outcome.2.1.table.occupied = slotsBeside (refused f.log) f.reactor.table.occupied
  ids : outcome.2.1.ids = f.reactor.ids
  isOpen : ∀ e, outcome.2.1.host.IsOpen e ↔ f.reactor.host.IsOpen e ∧ ∀ c ∈ refused f.log, c.endpoint? ≠ some e
  state : outcome.2.2 = { f.state with stats := { f.state.stats with
    appBytes := f.state.stats.appBytes + f.input.length, forwarded := f.state.stats.forwarded + f.delivered } }

end Forwarding

def Occasion.forwarding? (o : Occasion State) : Option Forwarding :=
  o.call?.bind fun (c, receiver) =>
    if c.kind = .appMsg ∧ reading (o.reactor.opening c.id receiver o.state) = .filled then
      some ⟨c, receiver, o.reactor, o.state⟩
    else none

variable {o : Occasion State} {f : Forwarding}

theorem Occasion.forwarding?_eq_some (found : o.forwarding? = some f) : o.call? = some (f.caller, f.receiver) ∧
    f.caller.kind = .appMsg ∧ reading f.scene = .filled ∧ f.reactor = o.reactor ∧ f.state = o.state := by
  obtain ⟨⟨c, receiver⟩, called, rest⟩ := Option.bind_eq_some_iff.1 found
  dsimp only at rest
  split at rest
  · rename_i reads
    cases rest
    exact ⟨called, reads.1, reads.2, rfl, rfl⟩
  · cases rest

namespace Reactor

variable {r : Reactor} {c : Connection} {id : Nat} {kinds : KindSet}

theorem targets_lend (found : r.connection? id = some c) (other : c.kind ∉ kinds) :
    (r.update id Connection.lend).targets kinds = r.targets kinds := by
  obtain ⟨rfl, before, after, split, ahead⟩ := connection?_split found
  rw [targets, update, split, updateFirst_append (by simp) ahead, targets, split, List.filter_append, List.filter_append,
    List.filter_cons_of_neg (by simp [lend, other]), List.filter_cons_of_neg (by simp [other])]

theorem hold_filter_lend (found : r.connection? id = some c) {stays : Connection → Bool} (own : stays c = true)
    (lent : stays c.lend = true) (receiver : Receiver) :
    updateFirst (·.id == id) (·.hold receiver) ((r.update id Connection.lend).connections.filter stays) =
      updateFirst (·.id == id) (·.hold receiver) (r.connections.filter stays) := by
  obtain ⟨rfl, before, after, split, ahead⟩ := connection?_split found
  have ahead' : ∀ d ∈ before.filter stays, ¬(d.id == c.id) = true := fun d mem => ahead d (List.mem_of_mem_filter mem)
  rw [update, split, updateFirst_append (by simp) ahead, List.filter_append, List.filter_append,
    List.filter_cons_of_pos lent, List.filter_cons_of_pos own, updateFirst_append (by simp [lend]) ahead',
    updateFirst_append (by simp) ahead']
  rfl

end Reactor

namespace Forwarding

/-- The handler has its caller's receiver, and the caller is no consumer. -/
structure Stands (f : Forwarding) (o : Occasion State) : Prop where
  reactor : f.reactor = o.reactor
  state : f.state = o.state
  found : f.reactor.connection? f.caller.id = some f.caller
  active : f.caller.IsActive
  held : f.caller.receiver = some f.receiver
  kind : f.caller.kind = .appMsg
  reading : Handlers.reading f.scene = .filled
  coherent : f.reactor.Coherent none
  foremost : f.reactor.Foremost
  outcome : o.outcome ofKind = (.ok 1, (f.reactor.runHandler forward f.caller.id f.receiver f.state).2)

def sent (f : Forwarding) : Nat × Reactor := (filled f.scene).reactor.sendTo consumers f.input

variable {f : Forwarding}

theorem stands (coherent : o.reactor.Coherent none) (foremost : o.reactor.Foremost) (found : o.forwarding? = some f) :
    f.Stands o := by
  obtain ⟨called, kind, read, sameReactor, sameState⟩ := Occasion.forwarding?_eq_some found
  obtain ⟨target, held⟩ := Occasion.call?_eq_some called
  obtain ⟨-, present, active, -⟩ := Sighting.target?_eq_some target
  refine ⟨sameReactor, sameState, sameReactor ▸ present, active, held, kind, read, sameReactor ▸ coherent, sameReactor ▸ foremost, ?_⟩
  rw [coherent.outcome_of_call called, sameReactor, sameState, kind]
  have run : (o.reactor.runHandler forward f.caller.id f.receiver o.state).1 = .ok () := by
    have returned := congrArg Prod.fst (forward_run f.caller.id read)
    rwa [scene, sameReactor, sameState] at returned
  rw [show ofKind .appMsg = forward from rfl, run]
  rfl

theorem Stands.sends (stands : f.Stands o) :
    Sends f.input consumers (some ((filled f.scene).loan f.caller.id)) (filled f.scene).reactor f.log f.sent := by
  have apart : f.caller.kind ∉ consumers := stands.kind ▸ by decide
  have targets : (filled f.scene).reactor.targets consumers = f.reactor.targets consumers :=
    targets_lend stands.found apart
  have lent : (filled f.scene).reactor.connection? f.caller.id = some f.caller.lend :=
    update_connection? (f := Connection.lend) (fun _ => rfl) stands.found
  have opened : f.scene.Coherent f.caller.id := stands.coherent.opening stands.found stands.held f.state
  have first : (filled f.scene).reactor.Foremost := stands.foremost.update Connection.lend (fun _ => rfl) f.caller.id
  rw [log, ← targets]
  refine Coherent.sends (filled_coherent opened) first f.input ?_
  rintro _ ⟨⟩ d own
  cases lent.symm.trans own
  exact apart

theorem Stands.spares (stands : f.Stands o) {d : Connection} (other : d.kind ∉ consumers) : d ∉ refused f.log := by
  intro gone
  have target := (refused_sublist f.log).subset gone
  rw [stands.sends.targets] at target
  exact other (of_decide_eq_true (List.mem_filter.1 target).2).2

theorem Stands.restored (stands : f.Stands o) (buffer : Bytes) :
    f.sent.2.restore f.caller.id ⟨f.receiver.endpoint, buffer⟩ =
      f.sent.2.update f.caller.id (·.hold ⟨f.receiver.endpoint, buffer⟩) := by
  have lent : f.caller.lend ∈ (filled f.scene).reactor.connections :=
    connection?_mem (update_connection? (f := Connection.lend) (fun _ => rfl) stands.found)
  have kept : f.caller.lend ∈ f.sent.2.connections := by
    rw [stands.sends.connections]
    exact List.mem_filter.2 ⟨lent, decide_eq_true (stands.spares (stands.kind ▸ by decide))⟩
  have first : (filled f.scene).reactor.Foremost := stands.foremost.update Connection.lend (fun _ => rfl) f.caller.id
  have found := (first.of_sublist (stands.sends.connections ▸ List.filter_sublist)).found kept stands.active
  have settled := stands.coherent.books.settled f.caller (connection?_mem stands.found)
  exact restore_of_lent found rfl (settled.fd f.receiver stands.held)

theorem Stands.apart (stands : f.Stands o) {e : Endpoint} (own : f.receiver.endpoint = some e) :
    ∀ a ∈ f.log, a.target.endpoint? ≠ some e := by
  intro a mem same
  have target : a.target ∈ (filled f.scene).reactor.targets consumers :=
    stands.sends.targets ▸ List.mem_map_of_mem (f := Attempt.target) mem
  rw [show (filled f.scene).reactor.targets consumers = f.reactor.targets consumers from
    targets_lend stands.found (stands.kind ▸ by decide)] at target
  obtain ⟨among, consumer⟩ := List.mem_filter.1 target
  have unique := (List.nodup_append.1 stands.coherent.books.unique).1
  have held : f.caller.endpoint? = some e := (endpoint?_of_receiver stands.held).trans own
  have one : a.target = f.caller := eq_of_filterMap unique among (connection?_mem stands.found) same held
  rw [one, stands.kind] at consumer
  exact absurd (of_decide_eq_true consumer).2 (by decide)

theorem Stands.done (stands : f.Stands o) : f.Done (o.outcome ofKind) := by
  obtain ⟨-, e, bytes, own, got, more, eq⟩ := (reading_cases f.scene).resolve_left fun unread => unread.1 stands.reading
  obtain ⟨⟨host, writes, shrinks, sound⟩, targets, distinct, delivered, connections, table, ids, isOpen⟩ := stands.sends
  have input : f.input = f.receiver.buffer ++ bytes := congrArg (·.receiver.buffer) eq
  have filled : f.input ≠ [] := by simp [input, more]
  have outcome : o.outcome ofKind = (.ok 1, f.sent.2.update f.caller.id (·.hold ⟨f.receiver.endpoint, []⟩),
      { f.state with stats := { f.state.stats with
        appBytes := f.state.stats.appBytes + f.input.length, forwarded := f.state.stats.forwarded + f.delivered } }) := by
    have emptied : (Handlers.filled f.scene).receiver.consume (Handlers.filled f.scene).receiver.buffer.length =
        ⟨f.receiver.endpoint, []⟩ := by
      rw [eq]
      simp [Receiver.consume, show f.receiver.endpoint = some e from own]
    rw [stands.outcome, runHandler_snd, show f.reactor.opening f.caller.id f.receiver f.state = f.scene from rfl,
      forward_run f.caller.id stands.reading, emptied, ← stands.restored]
    dsimp only
    rw [show (Reactor.sendTo consumers (Handlers.filled f.scene).receiver.buffer (Handlers.filled f.scene).reactor).1 =
      f.delivered from delivered]
    rfl
  have host' : (Handlers.filled f.scene).reactor.host = (f.reactor.host.read e).2 := congrArg (·.reactor.host) eq
  have reads := Host.read_reads f.reactor.host e
  -- Reading moves on in the application's file only, and no consumer is at the application's endpoint.
  have file {a : Attempt} (mem : a ∈ f.log) : a.target.endpoint?.bind (f.reactor.host.read e).2.file? =
      a.target.endpoint?.bind f.reactor.host.file? := by
    cases known : a.target.endpoint? with
    | none => rfl
    | some e' => exact reads.file e' fun same => stands.apart own a mem (same ▸ known)
  have apart : f.caller.kind ∉ consumers := stands.kind ▸ by decide
  have stays : decide (f.caller ∉ refused f.log) = true := decide_eq_true (stands.spares apart)
  have lent : decide (f.caller.lend ∉ refused f.log) = true := decide_eq_true (stands.spares apart)
  rw [outcome]
  exact {
    returns := rfl
    reads := ⟨e, bytes, own, got, more, input⟩
    targets := targets.trans (targets_lend stands.found apart)
    took := writes.took filled
    writes := ⟨host, writes, shrinks⟩
    outbound := fun n => by
      refine (shrinks.outbound n).trans ?_
      rw [writes.outbound?, host', reads.outbound, funext reads.stream]
    stored := fun node => by
      have same : f.sent.2.host.storedBytes node = host.storedBytes node := by
        rw [Host.storedBytes, shrinks.stored, Host.storedBytes]
      refine same.trans ((writes.storedBytes distinct node).trans ?_)
      rw [host', reads.stored]
      exact List.foldl_ext _ _ _ fun old a mem => by rw [file mem]
    places := fun x still other => by
      have same : f.sent.2.host.file? x = host.file? x := by
        rw [Host.file?, shrinks.content? sound still, Host.file?]
      refine same.trans ((writes.file? x).trans ?_)
      rw [host', reads.file x fun here => other (own.trans (congrArg some here.symm))]
    connections := (congrArg (updateFirst _ _) connections).trans (hold_filter_lend stands.found stays lent _)
    table
    ids
    isOpen := fun x => (isOpen x).trans (by rw [host', (Host.Still.read f.reactor.host e).quiet.isOpen])
    state := rfl }

end Forwarding

end TraceGate
