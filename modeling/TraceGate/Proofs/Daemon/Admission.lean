import TraceGate.Proofs.Daemon.Changes

/-!
# When requests are served

The policy decides which peers are called, and not which requests a call serves: a call reads once and serves what it
has read, even if one of its requests forbids the peer. From then on the peer is not called until it is allowed again.
A change of the level that fails on its way may leave peers active that are not allowed any more; they go on being called
until a change goes through.
-/

namespace TraceGate

open Handlers Reactor Site

/-- The request moves the level, and a kind that was allowed is forbidden from there on. -/
structure Serving.Forbids (v : Serving) (kind : Kind) : Prop where
  before : kind ∈ v.site.state.filter.allowed
  after : kind ∉ v.after.state.filter.allowed
  level : ∃ level change, Site.requested? v.request = some level ∧
    v.site.state.filter.changeLevel level = .ok (change, v.after.state.filter)

variable {kind : Kind} {v : Serving} {earlier later : List Serving} {scene : Scene State} {call : Call}

theorem Serving.forbids (before : kind ∈ v.site.state.filter.allowed) (after : kind ∉ v.after.state.filter.allowed) :
    v.Forbids kind := by
  apply Forbids.mk before after
  rcases Site.serve_filter v.request v.site with same | moved
  · rw [Serving.after, same] at after
    exact absurd before after
  · exact moved

namespace Handlers

theorem Serves.allowed (serves : Serves scene call) (start : kind ∈ scene.state.filter.allowed)
    (split : call.served = earlier ++ v :: later) :
    kind ∈ v.site.state.filter.allowed ∨ ∃ u ∈ earlier, u.Forbids kind := by
  induction serves generalizing earlier with
  | waiting incomplete => simp at split
  | unfit oversized => simp at split
  | unanswered site =>
      cases earlier with
      | nil =>
          cases split
          rw [site]
          exact Or.inl start
      | cons w earlier => simp at split
  | @answered scene u more host rest site frame sent tail ih =>
      have first : kind ∈ u.site.state.filter.allowed := by
        rw [site]
        exact start
      cases earlier with
      | nil =>
          cases split
          exact Or.inl first
      | cons w earlier =>
          obtain ⟨rfl, further⟩ := List.cons.inj split
          by_cases still : kind ∈ u.after.state.filter.allowed
          · rcases ih still further with allowed | ⟨w, mem, forbids⟩
            · exact Or.inl allowed
            · exact Or.inr ⟨w, List.mem_cons_of_mem _ mem, forbids⟩
          · exact Or.inr ⟨u, List.mem_cons_self, Serving.forbids first still⟩

theorem streamCall_allowed (start : kind ∈ scene.state.filter.allowed)
    (split : (streamCall scene).served = earlier ++ v :: later) :
    kind ∈ v.site.state.filter.allowed ∨ ∃ u ∈ earlier, u.Forbids kind := by
  cases read : reading scene with
  | filled => exact (streamCall_serves read).allowed start split
  | nothing => simp [streamCall, read] at split
  | lost => simp [streamCall, read] at split

end Handlers

namespace Daemon

variable {settings : Settings} {filter : Filter.MessageFilter} {entries : List Entry} {d : Daemon} {wait : Wait}
  {o : Occasion State} {c : Connection} {receiver : Receiver} {before after : List (Occasion State)}

/-- How the policy bears on a call that serves requests, if there were the changes `past` before. -/
structure Admits (past : List Change) (o : Occasion State) (c : Connection) (scene : Scene State) : Prop where
  run : (ofKind c.kind c.id).run.run scene = (streamCall scene).run c.id
  read : reading scene = .filled → Serves (filled scene) (streamCall scene)
  changes : o.changes = (streamCall scene).served.filterMap Serving.change?
  allowed : settled true past → c.kind ∈ o.state.filter.allowed
  /-- A request that is served while its peer is forbidden was read together with one that has forbidden the peer. -/
  served : settled true past → ∀ earlier v later, (streamCall scene).served = earlier ++ v :: later →
    c.kind ∈ v.site.state.filter.allowed ∨ ∃ u ∈ earlier, u.Forbids c.kind
  /-- The call leaves nobody active who is forbidden, unless a change fails on its way. -/
  left : settled true (past ++ o.changes) → Site.Obeys ⟨(o.outcome ofKind).2.2, (o.outcome ofKind).2.1⟩

theorem History.admits (history : History settings filter entries d) (split : d.turns wait = before ++ o :: after)
    (called : o.call? = some (c, receiver)) (requests : c.kind ∈ requesters) :
    Admits (changes entries ++ before.flatMap Occasion.changes) o c (o.reactor.opening c.id receiver o.state) := by
  have followed := (followed_turns history.followed wait).1 before o after split
  obtain ⟨-, found, active, -⟩ := Sighting.target?_eq_some (Occasion.call?_eq_some called).1
  have allowed (known : settled true (changes entries ++ before.flatMap Occasion.changes)) :
      c.kind ∈ o.state.filter.allowed := followed.obeys known c (connection?_mem found) active
  exact {
    run := by rw [ofKind_requester requests, stream_run]
    read := streamCall_serves
    changes := by
      rw [Occasion.changes, called]
      exact if_pos requests
    allowed
    served := fun known _ _ _ => streamCall_allowed (allowed known)
    left := by
      rw [settled_append]
      exact followed.turn.obeys }

/-- A request is served while its peer is forbidden. -/
abbrev Oversteps (d : Daemon) (wait : Wait) (c : Connection) (receiver : Receiver) : Prop :=
  ∃ o ∈ d.turns wait, o.call? = some (c, receiver) ∧ ∃ v ∈ (streamCall (o.reactor.opening c.id receiver o.state)).served,
    v.answer.status = .ok ∧ c.kind ∉ v.site.state.filter.allowed

end Daemon

namespace Pipelining

open Daemon

def config : Filter.Config where
  general := { name := "gated", defaultLevel := 100 }
  filters := [{ name := "quiet", level := 49, controlMessages := "*" },
    { name := "open", level := 100, clients := "TCP", controlMessages := "*" }]

def settings : Settings := { appSocket := "/dlt", controlSocket := "/ctrl" }

def filter : Filter.MessageFilter := (Filter.MessageFilter.ofConfig config).toOption.get (by decide +kernel)

def started : Daemon := (Daemon.start settings filter {}).2

def listener : Endpoint := ⟨4, 7, .tcpListener⟩

def called : Host := (started.site.reactor.host.connectNetwork listener "caller").toOption.get (by decide +kernel)

def joined : Daemon :=
  (Daemon.runOnce (Round.wait [(7, Flags.input)]) { started with site := started.site.setHost called }).2

theorem called_step : Host.PeerStep started.site.reactor.host called :=
  .connectNetwork (Reactor.toOption_eq_some.1 (Option.some_get _).symm)

theorem joined_history : ∃ entries, History settings filter entries joined := by
  have sound : ({} : Host).Sound := ⟨by decide, by rintro e ⟨⟩⟩
  have start : History settings filter [] started := .start sound (by decide +kernel)
  exact ⟨_, .runOnce (start.beside (Site.Beside.peer called_step).toElapses) _⟩

def lower : Request := ⟨0xF0A, Frame.encodeWord 10⟩

def ask : Request := ⟨0xF0B, []⟩

def daemon : Daemon :=
  { joined with
    site := joined.site.setHost (joined.site.reactor.host.peerWrite "caller" (lower.encode ++ ask.encode)).2 }

def wait : Wait := Round.wait [(8, Flags.input)]

def socket : Receiver := ⟨some ⟨6, 8, .tcpStream⟩, []⟩

def client : Connection := ⟨6, .clientMsgTcp, .active, Flags.input, some socket, some 8⟩

theorem daemon_history : ∃ entries, History settings filter entries daemon :=
  joined_history.imp fun _ before => before.beside (Site.Beside.peer (.write "caller" _)).toElapses

theorem client_admitted : ∃ entries, History settings filter entries daemon ∧ ∃ before o after,
    daemon.turns wait = before ++ o :: after ∧ o.call? = some (client, socket) ∧
      Admits (changes entries ++ before.flatMap Occasion.changes) o client
        (o.reactor.opening client.id socket o.state) := by
  obtain ⟨entries, history⟩ := daemon_history
  have turn : ∃ o ∈ daemon.turns wait, o.call? = some (client, socket) := by decide +kernel
  obtain ⟨o, mem, called⟩ := turn
  obtain ⟨before, after, split⟩ := List.append_of_mem mem
  exact ⟨entries, history, before, o, after, split, called, History.admits history split called (by decide)⟩

end Pipelining

namespace Crowding

open Daemon Pipelining

def filter : Filter.MessageFilter where
  name := "gated"
  backend := none
  chain := ⟨[⟨"line", 0, 49, Filter.ListText.clients "Serial", .full, .nothing⟩,
    ⟨"open", 50, 100, Filter.ListText.clients "TCP", .full, .nothing⟩]⟩
  registry := {}
  defaultLevel := 100
  level := 100
  current := 1
  current_lt := by decide

def settings : Settings where
  appSocket := "/dlt"
  controlSocket := "/ctrl"
  serialDevice := some "/line"
  watchdogInterval := some 30
  bindAddresses := [.v4 127 0 0 1, .loopback]

def host : Host := ({} : Host).storeFile "/line" []

def started : Daemon := (Daemon.start settings filter host).2

def listener : Endpoint := ⟨7, 9, .tcpListener⟩

def called : Host := (started.site.reactor.host.connectNetwork listener "caller").toOption.get (by decide +kernel)

def joined : Daemon :=
  (Daemon.runOnce (Round.wait [(9, Flags.input)]) { started with site := started.site.setHost called }).2

theorem joined_history : ∃ entries, History settings filter entries joined := by
  have sound : host.Sound := ⟨by decide +kernel, by rintro e ⟨⟩⟩
  have start : History settings filter [] started := .start sound (by decide +kernel)
  have call : Host.PeerStep started.site.reactor.host called :=
    .connectNetwork (Reactor.toOption_eq_some.1 (Option.some_get _).symm)
  exact ⟨_, .runOnce (start.beside (Site.Beside.peer call).toElapses) _⟩

def asking : Daemon :=
  { joined with site := joined.site.setHost (joined.site.reactor.host.peerWrite "caller" ask.encode).2 }

def crowded : Daemon :=
  { asking with
    site := { asking.site with
      reactor := { asking.site.reactor with table := { asking.site.reactor.table with room := some 8 } } } }

def daemon : Daemon := (crowded.setLevel 10).2

def wait : Wait := Round.wait [(11, Flags.input)]

def socket : Receiver := ⟨some ⟨10, 11, .tcpStream⟩, []⟩

def client : Connection := ⟨9, .clientMsgTcp, .active, Flags.input, some socket, some 11⟩

theorem daemon_history : ∃ entries, History settings filter entries daemon := by
  obtain ⟨entries, before⟩ := joined_history
  have asks : History settings filter entries asking := before.beside (Site.Beside.peer (.write "caller" _)).toElapses
  have full : History settings filter entries crowded := asks.beside (.scarce asking.site (some 8))
  exact ⟨_, full.setLevel 10⟩

/-- Forbidden clients are served that have sent two requests at once, or that a change has not come to. -/
theorem oversteps : ((∃ entries, History Pipelining.settings Pipelining.filter entries Pipelining.daemon) ∧
      Pipelining.client.kind ∈ requesters ∧
      Pipelining.daemon.Oversteps Pipelining.wait Pipelining.client Pipelining.socket) ∧
    (∃ entries, History settings filter entries daemon) ∧ client.kind ∈ requesters ∧
      daemon.Oversteps wait client socket :=
  ⟨⟨Pipelining.daemon_history, by decide, by decide +kernel⟩, daemon_history, by decide, by decide +kernel⟩

end Crowding

end TraceGate
