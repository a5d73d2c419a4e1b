import TraceGate.Proofs.Daemon.Admission
import TraceGate.Proofs.Reactor.Fairness
import TraceGate.Proofs.Reactor.Foremost

namespace TraceGate

open Connection Relation

namespace Handlers

/-- The handler returns; the first connections with the numbers are gone, and new ones come last. -/
structure Leaves (s : Scene State) (ids : List Nat) (result : Except String Unit × Scene State) : Prop where
  returns : result.1 = .ok ()
  keys : ∃ new, result.2.reactor.keys = strike s.reactor.keys ids ++ new

variable {kind : Kind} {id : Nat} {s t : Scene State}

theorem dropPeer_leaves (coherent : s.Coherent id) (present : id ∈ s.reactor.keys.map Prod.fst) :
    Leaves s [id] ((dropPeer id).run.run s) := by
  obtain ⟨c, found⟩ := Reactor.exists_connection? present
  obtain rfl : c.id = id := (Reactor.connection?_split found).1
  have done := Reactor.Coherent.unregister_ok coherent found
  have run : (dropPeer c.id).run.run s = (Turn.orFail EventError.message (s.reactor.unregister c.id).1 :
      Turn State Unit).run.run { s with reactor := (s.reactor.unregister c.id).2 } := rfl
  rw [run, done]
  exact ⟨rfl, [], ((Reactor.Coherent.unregister_keys coherent c.id).1).trans (List.append_nil _).symm⟩

theorem Leaves.of_grown {result : Except String Unit × Scene State} (leaves : Leaves t [id] result)
    (grown : s.reactor.keys <+: t.reactor.keys) (present : id ∈ s.reactor.keys.map Prod.fst) : Leaves s [id] result := by
  obtain ⟨returns, new, keys⟩ := leaves
  obtain ⟨more, grown⟩ := grown
  obtain ⟨key, mem, own⟩ := List.mem_map.1 present
  refine ⟨returns, more ++ new, ?_⟩
  rw [keys, ← grown, ← List.append_assoc]
  exact congrArg (· ++ new) (List.eraseP_append_left (p := fun k : Nat × Kind => k.1 == id) (beq_iff_eq.2 own) more mem)

theorem Leaves.of_join {result : Except String Unit × Scene State} (leaves : Leaves t [] result)
    (grown : s.reactor.keys <+: t.reactor.keys) : Leaves s [] result := by
  obtain ⟨returns, new, keys⟩ := leaves
  obtain ⟨more, grown⟩ := grown
  refine ⟨returns, more ++ new, ?_⟩
  rw [keys, ← grown]
  exact List.append_assoc _ _ _

theorem filled_coherent (coherent : s.Coherent id) : (filled s).Coherent id := by
  have grows := (Host.Still.fill s.receiver s.reactor.host).grows
  exact Scene.steps_coherent (Goes.beside (fill_endpoint _ _) grows s.state coherent) coherent

theorem Call.run_leaves {call : Call} (coherent : call.scene.Coherent id)
    (grown : s.reactor.keys <+: call.scene.reactor.keys) (present : id ∈ s.reactor.keys.map Prod.fst) :
    Leaves s (if call.ending.removes then [id] else []) (call.run id) := by
  unfold Call.run
  split
  · exact (dropPeer_leaves coherent ((grown.map Prod.fst).subset present)).of_grown grown present
  · obtain ⟨new, grown⟩ := grown
    exact ⟨rfl, new, grown.symm⟩

theorem stream_leaves (coherent : s.Coherent id) (present : id ∈ s.reactor.keys.map Prod.fst) :
    Leaves s (if (streamCall s).ending.removes then [id] else []) ((stream id).run.run s) := by
  have later := filled_coherent coherent
  rw [stream_run]
  cases read : reading s with
  | filled =>
      have serves := streamCall_serves read
      have goes := Moves.goes (serves.moves id)
      exact Call.run_leaves (Scene.steps_coherent (goes later) later) serves.keys present
  | nothing =>
      have call : streamCall s = ⟨[], .idle, filled s⟩ := by rw [streamCall, read]
      rw [call]
      exact Call.run_leaves later (List.prefix_refl _) present
  | lost =>
      have call : streamCall s = ⟨[], .lost, filled s⟩ := by rw [streamCall, read]
      rw [call]
      exact Call.run_leaves later (List.prefix_refl _) present

def removedBy (id : Nat) (rest : Scene State → List Nat) (s : Scene State) : List Nat :=
  match reading s with
  | .filled => rest (filled s)
  | .nothing => []
  | .lost => [id]

theorem read_leaves {rest : Turn State Unit} (ids : Scene State → List Nat) (coherent : s.Coherent id)
    (present : id ∈ s.reactor.keys.map Prod.fst)
    (leaves : (filled s).Coherent id → Leaves (filled s) (ids (filled s)) (rest.run.run (filled s))) :
    Leaves s (removedBy id ids s) ((do if ← fillOrDrop id then rest : Turn State Unit).run.run s) := by
  have later := filled_coherent coherent
  rw [read_run, removedBy]
  cases reading s with
  | filled => exact ⟨(leaves later).returns, (leaves later).keys⟩
  | nothing => exact ⟨rfl, [], (List.append_nil _).symm⟩
  | lost => exact (dropPeer_leaves later present).of_grown (List.prefix_refl _) present

theorem ignore_leaves (coherent : s.Coherent id) (present : id ∈ s.reactor.keys.map Prod.fst) :
    Leaves s (removedBy id (fun _ => []) s) ((ignore id).run.run s) :=
  read_leaves _ coherent present fun _ => ⟨rfl, [], (List.append_nil _).symm⟩

def refusers (s : Scene State) : List Nat :=
  (Reactor.sendEach s.receiver.buffer (s.reactor.targets consumers) s.reactor.host).1.2

theorem forward_leaves (coherent : s.Coherent id) (present : id ∈ s.reactor.keys.map Prod.fst) :
    Leaves s (removedBy id refusers s) ((forward id).run.run s) := by
  refine read_leaves refusers coherent present fun later => ⟨rfl, [], ?_⟩
  rw [List.append_nil]
  exact Reactor.Coherent.sendTo_keys later consumers (filled s).receiver.buffer

theorem acceptAll_leaves (peer : Kind) (listener : Endpoint) (fuel : Nat) (s : Scene State) :
    Leaves s [] ((acceptAll peer false listener fuel).run.run s) := by
  induction fuel generalizing s with
  | zero => exact ⟨rfl, [], (List.append_nil _).symm⟩
  | succ fuel ih =>
      unfold acceptAll
      rw [Turn.run_receiver]
      dsimp only
      generalize s.reactor.host.accept listener = outcome
      obtain ⟨result, host⟩ := outcome
      have idle : ∃ new, s.reactor.keys = strike s.reactor.keys [] ++ new := ⟨[], (List.append_nil _).symm⟩
      dsimp only
      split
      · exact ⟨rfl, idle⟩
      · exact ⟨(ih _).returns, (ih _).keys⟩
      · exact ⟨rfl, idle⟩
      · rename_i e
        have grown := Site.prefix_register { s.reactor with host } s.state.filter.allowed peer (.ofEndpoint e) Flags.input
        rw [run_site, Site.react_eq]
        dsimp only
        split <;> rename_i eq <;> obtain ⟨-, rfl⟩ := Prod.mk.inj eq
        · exact (ih _).of_join grown
        · exact (ih _).of_join grown

theorem accept_leaves (peer : Kind) (listening : s.receiver.endpoint.isSome) (id : Nat) :
    Leaves s [] ((accept peer false id).run.run s) := by
  obtain ⟨⟨_ | listener, buffer⟩, reactor, state⟩ := s
  · cases listening
  · exact acceptAll_leaves peer listener _ _

def peerKinds : KindSet :=
  .ofList [.clientMsgTcp, .clientMsgSerial, .controlMsg, .appMsg, .offlineTrace, .offlineLogstorage, .gateway,
    .clientConnect, .appConnect]

def removed (kind : Kind) (id : Nat) (s : Scene State) : List Nat :=
  if kind ∈ requesters then if (streamCall s).ending.removes then [id] else []
  else if kind = .clientConnect ∨ kind = .appConnect then []
  else removedBy id (if kind = .appMsg then refusers else fun _ => []) s

theorem ofKind_leaves (peer : kind ∈ peerKinds) (coherent : s.Coherent id)
    (present : id ∈ s.reactor.keys.map Prod.fst) (own : s.receiver.endpoint.isSome) :
    Leaves s (removed kind id s) ((ofKind kind id).run.run s) := by
  cases kind with
  | clientConnect => exact accept_leaves .clientMsgTcp own id
  | appConnect => exact accept_leaves .appMsg own id
  | clientMsgTcp => exact stream_leaves coherent present
  | clientMsgSerial => exact stream_leaves coherent present
  | controlMsg => exact stream_leaves coherent present
  | appMsg => exact forward_leaves coherent present
  | offlineTrace => exact ignore_leaves coherent present
  | offlineLogstorage => exact ignore_leaves coherent present
  | gateway => exact ignore_leaves coherent present
  | _ => exact absurd peer (by decide)

theorem Serves.ending {call : Call} (serves : Serves s call) :
    call.ending = .waiting ∨ call.ending = .unfit ∨ call.ending = .unanswered := by
  induction serves with
  | waiting incomplete => exact Or.inl rfl
  | unfit oversized => exact Or.inr (Or.inl rfl)
  | unanswered site frame failed => exact Or.inr (Or.inr rfl)
  | answered site frame sent later ih => exact ih

/-- The peer has closed or failed, has sent an unfit frame or does not take a response. -/
def Fails (kind : Kind) (s : Scene State) : Prop :=
  kind ≠ .clientConnect ∧ kind ≠ .appConnect ∧ (reading s = .lost ∨
    kind ∈ requesters ∧ reading s = .filled ∧
      ((streamCall s).ending = .unfit ∨ (streamCall s).ending = .unanswered))

theorem removes_iff (s : Scene State) : (streamCall s).ending.removes ↔ reading s = .lost ∨
    reading s = .filled ∧ ((streamCall s).ending = .unfit ∨ (streamCall s).ending = .unanswered) := by
  cases read : reading s with
  | filled => rcases (streamCall_serves read).ending with eq | eq | eq <;> simp [eq, Ending.removes]
  | nothing => simp [streamCall, read, Ending.removes]
  | lost => simp [streamCall, read, Ending.removes]

theorem refusers_spec (foremost : s.reactor.Foremost) : (refusers (filled s)).Nodup ∧
    ∀ j ∈ refusers (filled s), ∃ b, s.reactor.connection? j = some b ∧ b.IsActive ∧ b.kind ∈ consumers ∧
      Reactor.Refuses (filled s).receiver.buffer (s.reactor.targets consumers) (filled s).reactor.host b :=
  foremost.refusers consumers (filled s).receiver.buffer (filled s).reactor.host

theorem removed_nodup (foremost : s.reactor.Foremost) (kind : Kind) (id : Nat) : (removed kind id s).Nodup := by
  unfold removed
  split
  · split <;> simp
  · split
    · simp
    · unfold removedBy
      split
      · split
        · exact (refusers_spec foremost).1
        · exact List.nodup_nil
      · exact List.nodup_nil
      · exact List.nodup_singleton id

theorem mem_removed_other (foremost : s.reactor.Foremost) {j : Nat} (mem : j ∈ removed kind id s) (other : j ≠ id) :
    kind = .appMsg ∧ reading s = .filled ∧ ∃ b, s.reactor.connection? j = some b ∧ b.IsActive ∧ b.kind ∈ consumers ∧
      Reactor.Refuses (filled s).receiver.buffer (s.reactor.targets consumers) (filled s).reactor.host b := by
  unfold removed at mem
  split at mem
  · split at mem
    · exact absurd (List.mem_singleton.1 mem) other
    · cases mem
  · split at mem
    · cases mem
    · unfold removedBy at mem
      split at mem <;> rename_i read
      · split at mem
        · rename_i application
          exact ⟨application, read, (refusers_spec foremost).2 j mem⟩
        · cases mem
      · cases mem
      · exact absurd (List.mem_singleton.1 mem) other

theorem mem_removed_own {c : Connection} (foremost : s.reactor.Foremost) (found : s.reactor.connection? id = some c) :
    id ∈ removed c.kind id s ↔ Fails c.kind s := by
  unfold removed Fails
  by_cases requests : c.kind ∈ requesters
  · have client : c.kind ≠ .clientConnect := fun eq => absurd (eq ▸ requests) (by decide)
    have application : c.kind ≠ .appConnect := fun eq => absurd (eq ▸ requests) (by decide)
    rw [if_pos requests]
    simp [client, application, requests, ← removes_iff]
  · rw [if_neg requests]
    split
    · rename_i listener
      rcases listener with eq | eq <;> simp [eq]
    · rename_i others
      obtain ⟨client, application⟩ := not_or.1 others
      unfold removedBy
      cases reading s with
      | lost => simp [client, application]
      | nothing => simp [requests]
      | filled =>
          -- A number of a consumer is not that of an application.
          have apart : id ∉ (if c.kind = .appMsg then refusers else fun _ => []) (filled s) := by
            split
            · rename_i sender
              intro mem
              obtain ⟨b, found', -, consumer, -⟩ := (refusers_spec foremost).2 id mem
              cases found'.symm.trans found
              rw [sender] at consumer
              exact absurd consumer (by decide)
            · exact List.not_mem_nil
          simp [apart, requests]

end Handlers

namespace Daemon

open Handlers Reactor

/-- What comes of a call for a peer. -/
structure Harmless (o : Occasion State) (c : Connection) (scene : Scene State) : Prop where
  returns : ((ofKind c.kind c.id).run.run scene).1 = .ok ()
  counted : (o.outcome ofKind).1 = .ok 1
  left : ∃ new, (o.outcome ofKind).2.1.keys = strike o.reactor.keys (removed c.kind c.id scene) ++ new
  once : (removed c.kind c.id scene).Nodup
  own : c.id ∈ removed c.kind c.id scene ↔ Fails c.kind scene
  /-- The others are consumers that do not take what is forwarded. -/
  others : ∀ id ∈ removed c.kind c.id scene, id ≠ c.id → c.kind = .appMsg ∧ reading scene = .filled ∧
    ∃ b, scene.reactor.connection? id = some b ∧ b.IsActive ∧ b.kind ∈ consumers ∧
      Refuses (filled scene).receiver.buffer (scene.reactor.targets consumers) (filled scene).reactor.host b
  serves : c.kind ∈ requesters → reading scene = .filled → Serves (filled scene) (streamCall scene)

variable {settings : Settings} {filter : Filter.MessageFilter} {entries : List Entry} {d : Daemon} {wait : Wait} {r : Reactor}
  {state : State} {o : Occasion State} {c : Connection} {receiver : Receiver}

theorem call_harmless (reachable : r.Reachable) (mem : o ∈ r.turns wait ofKind state)
    (called : o.call? = some (c, receiver)) (peer : c.kind ∈ peerKinds) :
    Harmless o c (o.reactor.opening c.id receiver o.state) := by
  obtain ⟨coherent, foremost⟩ := reachable.turn_foremost ofKind_acts mem
  obtain ⟨target, held⟩ := Occasion.call?_eq_some called
  obtain ⟨-, found, active, -⟩ := Sighting.target?_eq_some target
  obtain ⟨receiver', e, held', endpoint, -⟩ := coherent.backed c (connection?_mem found) active
  obtain rfl : receiver = receiver' := Option.some_inj.1 (held.symm.trans held')
  have opened := coherent.opening found held o.state
  have lent : (o.reactor.opening c.id receiver o.state).reactor.Foremost := foremost.update lend (fun _ => rfl) c.id
  have known : (o.reactor.opening c.id receiver o.state).reactor.connection? c.id = some c.lend :=
    update_connection? (fun _ => rfl) found
  have keys : (o.reactor.opening c.id receiver o.state).reactor.keys = o.reactor.keys :=
    update_keys lend (fun _ => rfl) o.reactor c.id
  have present : c.id ∈ (o.reactor.opening c.id receiver o.state).reactor.keys.map Prod.fst := by
    rw [map_fst_keys]
    exact List.mem_map.2 ⟨c.lend, connection?_mem known, rfl⟩
  obtain ⟨returns, new, left⟩ := ofKind_leaves peer opened present (by
    rw [Option.isSome_iff_exists]
    exact ⟨e, endpoint⟩)
  rw [keys] at left
  have run : (o.reactor.runHandler (ofKind c.kind) c.id receiver o.state).1 = .ok () := returns
  have outcome := Coherent.outcome_of_call coherent called ofKind
  rw [run] at outcome
  exact {
    returns
    counted := by
      rw [outcome]
      rfl
    left := by
      refine ⟨new, ?_⟩
      rw [outcome, runHandler_snd, (restore_keys _ _ _).1]
      exact left
    once := removed_nodup lent c.kind c.id
    own := mem_removed_own (c := c.lend) lent known
    others := fun _ => mem_removed_other lent
    serves := fun _ => streamCall_serves }

/-- In whatever state a daemon is, a round fails only if the wait fails or the handler of another kind does, and what
peers do is harmless. -/
theorem History.peers_harmless (history : History settings filter entries d) (wait : Wait) :
    (∀ error, (d.runOnce wait).1 = .error error →
      (∃ e, wait d.site.reactor.host d.site.reactor.table.occupied = .error e ∧ error = .event e) ∨
      ∃ kind message, kind ∉ peerKinds ∧ error = .event (.handler kind message)) ∧
    ∀ o ∈ d.turns wait, ∀ c receiver, o.call? = some (c, receiver) →
      c.kind ∈ peerKinds → Harmless o c (o.reactor.opening c.id receiver o.state) := by
  refine ⟨fun error failed => ?_, fun o mem c receiver called peer => call_harmless history.reachable mem called peer⟩
  have same : (d.runOnce wait).1 = (d.site.reactor.round wait ofKind d.site.state).1.mapError .event := rfl
  rw [same] at failed
  cases result : (d.site.reactor.round wait ofKind d.site.state).1 with
  | ok n =>
      rw [result] at failed
      cases failed
  | error e =>
      rw [result] at failed
      cases failed
      rcases history.reachable.coherent.round_failure ofKind_acts result with waiting | ⟨before, o, c, receiver, message,
        split, called, run, rfl⟩
      · exact Or.inl ⟨e, waiting, rfl⟩
      · refine Or.inr ⟨c.kind, message, fun peer => ?_, rfl⟩
        have mem : o ∈ d.site.reactor.turns wait ofKind d.site.state := by
          rw [split]
          exact List.mem_append_right _ List.mem_cons_self
        have returns : (o.reactor.runHandler (ofKind c.kind) c.id receiver o.state).1 = .ok () :=
          (call_harmless history.reachable mem called peer).returns
        cases run.symm.trans returns

end Daemon

namespace Overlong

open Daemon Handlers Pipelining

def sent : Daemon :=
  { joined with site := joined.site.setHost (joined.site.reactor.host.peerWrite "caller" (Frame.header 0xF0B 65537)).2 }

theorem client_removed : ∃ o ∈ sent.turns wait,
    removed client.kind client.id (o.reactor.opening client.id socket o.state) = [client.id] ∧
      Harmless o client (o.reactor.opening client.id socket o.state) := by
  obtain ⟨entries, before⟩ := joined_history
  have history : History settings filter entries sent := before.beside (Site.Beside.peer (.write "caller" _)).toElapses
  have turn : ∃ o ∈ sent.turns wait, o.call? = some (client, socket) ∧
      removed client.kind client.id (o.reactor.opening client.id socket o.state) = [client.id] := by decide +kernel
  obtain ⟨o, mem, called, gone⟩ := turn
  exact ⟨o, mem, gone, (History.peers_harmless history wait).2 o mem client socket called (by decide)⟩

end Overlong

end TraceGate
