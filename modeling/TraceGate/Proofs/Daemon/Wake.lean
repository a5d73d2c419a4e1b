import TraceGate.Proofs.Daemon.Notices

namespace TraceGate

open Handlers

/-- Acts that follow one another with nothing in between, up to the one that ends them. -/
inductive Uninterrupted {κ σ α : Type} (act : κ → σ → (α ⊕ κ) × σ) : κ → σ → α → σ → Prop
  | last {k : κ} {s t : σ} {a : α} (ends : act k s = (.inl a, t)) : Uninterrupted act k s a t
  | first {k k' : κ} {s t u : σ} {a : α} (goes : act k s = (.inr k', t)) (rest : Uninterrupted act k' t a u) :
      Uninterrupted act k s a u

/-- How far a call of `notify` has come. -/
inductive Sending where
  | queueing (notice : Notice)
  | waking
deriving DecidableEq, Repr

namespace Site

def notifyAct (notifier : Notifier) : Sending → Site → (Except DaemonError Unit ⊕ Sending) × Site
  | .queueing notice, s =>
    match s.enqueue notice with
    | (false, s) => (.inl (.error .loopGone), s)
    | (true, s) => (.inr .waking, s)
  | .waking, s => (.inl (s.wake notifier).1, (s.wake notifier).2)

theorem notify_uninterrupted (notifier : Notifier) (notice : Notice) (s : Site) :
    Uninterrupted (notifyAct notifier) (.queueing notice) s (s.notify notifier notice).1 (s.notify notifier notice).2 := by
  unfold notify
  rcases queued : s.enqueue notice with ⟨_ | _, t⟩
  · exact .last (by rw [notifyAct, queued])
  · exact .first (by rw [notifyAct, queued]) (.last rfl)

end Site

inductive Taking where
  | reading
  | draining (held : List Notice)
deriving DecidableEq, Repr

namespace Handlers

def takeAct (id : Nat) : Taking → Scene State → (Except String (List Notice) ⊕ Taking) × Scene State
  | .reading, s =>
    match s.receiver.fill s.reactor.host with
    | (.error e, receiver, host) => (.inl (.error e.message), ⟨receiver, { s.reactor with host }, s.state⟩)
    | (.ok .wouldBlock, receiver, host) => (.inr (.draining []), ⟨receiver, { s.reactor with host }, s.state⟩)
    | (.ok .closed, receiver, host) =>
      match (dropPeer id).run.run ⟨receiver, { s.reactor with host }, s.state⟩ with
      | (.error message, t) => (.inl (.error message), t)
      | (.ok (), t) => (.inr (.draining []), t)
    | (.ok (.data _), receiver, host) =>
      (.inr .reading, ⟨receiver.consume receiver.buffer.length, { s.reactor with host }, s.state⟩)
  | .draining held, s =>
    match (siteOf s).dequeue with
    | (none, site) => (.inl (.ok held), placed s site)
    | (some notice, site) => (.inr (.draining (held ++ [notice])), placed s site)

theorem drains_uninterrupted (id : Nat) (queue held : List Notice) (s : Scene State)
    (waiting : (siteOf s).queued = queue) :
    Uninterrupted (takeAct id) (.draining held) s (.ok (held ++ queue)) (placed s (siteOf s).emptied) := by
  induction queue generalizing held s with
  | nil =>
      have empty : (siteOf s).dequeue = (none, siteOf s) := by
        unfold Site.dequeue
        split
        · rename_i known
          rw [Site.queued, known] at waiting
          cases waiting
        · rfl
      have same : (siteOf s).emptied = siteOf s := by
        unfold Site.queued at waiting
        unfold Site.emptied
        rcases known : s.state.notices with _ | queue <;> rw [known] at waiting
        · rw [Option.map_none, ← known]
        · rw [Option.map_some, ← show queue = [] from waiting, ← known]
      rw [same, List.append_nil]
      exact .last (by rw [takeAct, empty])
  | cons notice queue ih =>
      have known : s.state.notices = some (notice :: queue) := by
        unfold Site.queued at waiting
        rcases known : s.state.notices with _ | queue <;> rw [known] at waiting
        · cases waiting
        · rw [← show queue = _ from waiting]
      let site : Site := { siteOf s with state := { s.state with notices := some queue } }
      have dequeued : (siteOf s).dequeue = (some notice, site) := by rw [Site.dequeue, known]
      have rest := ih (held ++ [notice]) (placed s site) rfl
      have same : site.emptied = (siteOf s).emptied := by
        rw [Site.emptied, Site.emptied, known]
        rfl
      rw [List.append_assoc] at rest
      refine .first (by rw [takeAct, dequeued]) ?_
      rw [← same]
      exact rest

def ReadsTo (id : Nat) (s : Scene State) : Except String Unit × Scene State → Prop
  | (.error message, t) => Uninterrupted (takeAct id) .reading s (.error message) t
  | (.ok (), t) => ∀ outcome u, Uninterrupted (takeAct id) (.draining []) t outcome u →
      Uninterrupted (takeAct id) .reading s outcome u

theorem ReadsTo.first {id : Nat} {s t : Scene State} {result : Except String Unit × Scene State}
    (goes : takeAct id .reading s = (.inr .reading, t)) (rest : ReadsTo id t result) : ReadsTo id s result := by
  rcases result with ⟨message | _, u⟩
  · exact Uninterrupted.first goes rest
  · exact fun outcome v drains => .first goes (rest outcome v drains)

theorem reads_uninterrupted (id : Nat) {fuel : Nat} {s : Scene State} (enough : s.receiver.unread s.reactor.host < fuel) :
    ReadsTo id s ((drainWake id fuel).run.run s) := by
  induction fuel generalizing s with
  | zero => exact absurd enough (Nat.not_lt_zero _)
  | succ fuel ih =>
      unfold drainWake
      rw [Turn.run_receiver]
      rcases filled : s.receiver.fill s.reactor.host with ⟨error | _ | _ | _, receiver, host⟩
      · exact Uninterrupted.last (by rw [takeAct, filled])
      · have fewer := Nat.lt_of_lt_of_le (Receiver.unread_fill filled) (Nat.le_of_lt_succ enough)
        let t : Scene State := ⟨receiver.consume receiver.buffer.length, { s.reactor with host }, s.state⟩
        have goes : takeAct id .reading s = (.inr .reading, t) := by rw [takeAct, filled]
        exact .first goes (ih fewer)
      · exact fun outcome u drains => .first (by rw [takeAct, filled]) drains
      · change ReadsTo id s ((dropPeer id).run.run ⟨receiver, { s.reactor with host }, s.state⟩)
        rcases dropped : (dropPeer id).run.run ⟨receiver, { s.reactor with host }, s.state⟩ with ⟨message | _, t⟩
        · exact Uninterrupted.last (by rw [takeAct, filled]; dsimp only; rw [dropped])
        · exact fun outcome u drains => .first (by rw [takeAct, filled]; dsimp only; rw [dropped]) drains

theorem backend_uninterrupted (id : Nat) (s : Scene State) : ∃ outcome t,
    Uninterrupted (takeAct id) .reading s outcome t ∧ (backend id).run.run s = match outcome with
      | .error message => (.error message, t)
      | .ok notices =>
        (((siteOf t).applyNotices notices).1.mapError DaemonError.message, placed t ((siteOf t).applyNotices notices).2) := by
  have reads : ReadsTo id s (drained id s) := reads_uninterrupted id (Nat.lt_succ_self _)
  rcases read : drained id s with ⟨message | _, t⟩ <;> rw [read] at reads
  · exact ⟨_, t, reads, by rw [backend_run, read]⟩
  · have drains := drains_uninterrupted id _ [] t rfl
    exact ⟨_, _, reads _ _ drains, run_backend read⟩

end Handlers

inductive Phase where
  | idle
  | within (point : Taking)
  | failed
deriving DecidableEq, Repr

namespace Phase

def point? : Phase → Option Taking
  | idle => some .reading
  | within point => some point
  | failed => none

def held : Phase → List Notice
  | within (.draining held) => held
  | _ => []

def after : Except String (List Notice) ⊕ Taking → Phase
  | .inl (.ok _) => idle
  | .inl (.error _) => failed
  | .inr point => within point

end Phase

/-- The daemon at work while others call `notify`, and what has been done so far. -/
structure Wakeup where
  scene : Scene State
  callers : List Sending := []
  phase : Phase := .idle
  sent : List Notice := []
  given : List Notice := []

namespace Wakeup

def queue (u : Wakeup) : List Notice := (siteOf u.scene).queued

def taken (u : Wakeup) : List Notice := u.given ++ u.phase.held

def unread (u : Wakeup) (line : Nat) : Bytes := ((u.scene.reactor.host.line? line).map (·.inbound)).getD []

structure Beside (line : Nat) (s s' : Scene State) : Prop where
  receiver : s'.receiver = s.receiver
  notices : s'.state.notices = s.state.notices
  bytes : s'.reactor.host.line? line = s.reactor.host.line? line
  stream : ∀ e, s.reactor.host.content? e = some (.stream line) → s'.reactor.host.content? e = some (.stream line)

def queued : Sending → Except DaemonError Unit ⊕ Sending → List Notice
  | .queueing notice, .inr _ => [notice]
  | _, _ => []

def finished : Except String (List Notice) ⊕ Taking → List Notice
  | .inl (.ok notices) => notices
  | _ => []

/-- `notify` is called, a call or the handler does its next act, or something happens beside them. -/
inductive Step (id line : Nat) (u : Wakeup) : Wakeup → Prop
  | call (notice : Notice) : Step id line u { u with callers := u.callers ++ [.queueing notice] }
  | caller {before after : List Sending} {point : Sending} {outcome : Except DaemonError Unit ⊕ Sending} {site : Site}
      (among : u.callers = before ++ point :: after)
      (act : (siteOf u.scene).notifyAct ⟨line⟩ point = (outcome, site)) :
      Step id line u { u with
        scene := placed u.scene site
        callers := before ++ outcome.getRight?.toList ++ after
        sent := u.sent ++ queued point outcome }
  | handler {point : Taking} {outcome : Except String (List Notice) ⊕ Taking} {scene : Scene State}
      (turn : u.phase.point? = some point) (act : takeAct id point u.scene = (outcome, scene)) :
      Step id line u { u with scene, phase := .after outcome, given := u.given ++ finished outcome }
  | beside {scene : Scene State} (apart : Beside line u.scene scene) : Step id line u { u with scene }

/-- What can come about after a backend was linked. Lines, like endpoints, are numbered below the next number. -/
inductive Reachable (id : Nat) : (line : Nat) → Wakeup → Prop
  | start {s site : Site} {notifier : Notifier} {e : Endpoint} (sound : s.reactor.host.Sound)
      (numbered : ∀ p ∈ s.reactor.host.lines, p.1 < s.reactor.host.next)
      (linked : s.linkBackend = (.ok (notifier, e), site)) :
      Reachable id notifier.line { scene := ⟨.ofEndpoint e, site.reactor, site.state⟩ }
  | step {line : Nat} {u v : Wakeup} (before : Reachable id line u) (step : Step id line u v) : Reachable id line v

structure Linked (line : Nat) (u : Wakeup) : Prop where
  stream : ∃ e, u.scene.receiver.endpoint = some e ∧ u.scene.reactor.host.content? e = some (.stream line)
  complete : ∃ queue, u.scene.state.notices = some queue ∧ u.taken ++ queue = u.sent
  woken : ∃ w, u.scene.reactor.host.line? line = some w ∧ w.homeOpen = true ∧ w.peerOpen = true ∧
    (u.queue ≠ [] → u.phase = .idle → .waking ∉ u.callers → w.inbound ≠ [])

variable {id line : Nat} {u v : Wakeup} {s : Site}

theorem linked_start {site : Site} {notifier : Notifier} {e : Endpoint} (sound : s.reactor.host.Sound)
    (numbered : ∀ p ∈ s.reactor.host.lines, p.1 < s.reactor.host.next)
    (linked : s.linkBackend = (.ok (notifier, e), site)) :
    Linked notifier.line { scene := ⟨.ofEndpoint e, site.reactor, site.state⟩ } := by
  have opened : ∃ faults, s.reactor.host.openPair = (.ok ({ s.reactor.host with faults } : Host).openLine.1,
      ({ s.reactor.host with faults } : Host).openLine.2) := by
    obtain ⟨faults, opened | ⟨error, -, failed⟩⟩ := Host.attempt_cases s.reactor.host
      (fun h => (.ok h.openLine.1, h.openLine.2)) fun _ h => h
    · exact ⟨faults, opened⟩
    · rw [Site.linkBackend, Host.openPair, failed] at linked
      cases linked
  obtain ⟨faults, opened⟩ := opened
  rw [Site.linkBackend, opened] at linked
  obtain ⟨pair, rfl⟩ := Prod.mk.inj linked
  obtain ⟨rfl, made⟩ := Prod.mk.inj (Except.ok.inj pair)
  have unused : s.reactor.host.lines.lookup s.reactor.host.next = none := by
    refine List.lookup_eq_none_iff.2 fun p mem => ?_
    simpa using (numbered p mem).ne'
  have number : e.id = s.reactor.host.next + 1 := by rw [← made]; rfl
  have closed : s.reactor.host.endpoints.lookup e = none := by
    refine List.lookup_eq_none_iff.2 fun p mem => ?_
    have below := sound.numbers p.1 (List.mem_map_of_mem mem)
    have differ : e ≠ p.1 := fun same => by
      rw [← same, number] at below
      omega
    simpa using differ
  refine ⟨⟨e, rfl, ?_⟩, ⟨[], rfl, rfl⟩, {}, ?_, rfl, rfl, fun waits => absurd rfl waits⟩
  · change (s.reactor.host.endpoints ++ [(({ s.reactor.host with faults } : Host).openLine.1.1, _)]).lookup e = _
    rw [List.lookup_append, closed, made, List.lookup_cons_self]
    rfl
  · change (s.reactor.host.lines ++ [(s.reactor.host.next, ({} : Host.Line))]).lookup s.reactor.host.next = _
    rw [List.lookup_append, unused, List.lookup_cons_self]
    rfl

theorem wake_rouses (site : Site) {w : Host.Line} (known : site.reactor.host.line? line = some w)
    (home : w.homeOpen = true) (peer : w.peerOpen = true) : (site.wake ⟨line⟩).1 = .ok () ∧
      (site.wake ⟨line⟩).2.state = site.state ∧
      (site.wake ⟨line⟩).2.reactor.host.content? = site.reactor.host.content? ∧
      ∃ w, (site.wake ⟨line⟩).2.reactor.host.line? line = some w ∧ w.homeOpen = true ∧ w.peerOpen = true ∧
        w.inbound ≠ [] := by
  unfold Site.wake
  split
  · rename_i full
    exact ⟨rfl, rfl, rfl, w, known, home, peer, Host.isFull_line full known⟩
  · rw [Host.writeLine_eq known home (List.cons_ne_nil _ _)]
    exact ⟨rfl, rfl, rfl, _, Host.line?_updateLine_self known _, home, peer, by simp⟩

theorem Linked.handler (linked : Linked line u) {point : Taking} {outcome : Except String (List Notice) ⊕ Taking}
    {scene : Scene State} (turn : u.phase.point? = some point) (act : takeAct id point u.scene = (outcome, scene)) :
    Linked line { u with scene, phase := .after outcome, given := u.given ++ finished outcome } := by
  obtain ⟨e, held, stream⟩ := linked.stream
  obtain ⟨queue, waiting, complete⟩ := linked.complete
  obtain ⟨w, known, home, peer, -⟩ := linked.woken
  cases point with
  | reading =>
      have none : u.phase.held = [] := by
        rcases phase : u.phase with _ | point | _ <;> rw [phase] at turn <;> cases turn <;> rfl
      rw [taken, none, List.append_nil] at complete
      rw [takeAct] at act
      -- whatever is read, the handler is not idle after it, and has taken nothing
      rcases Receiver.fill_cases held stream known peer with ⟨-, fill⟩ | ⟨fault, -, -, fill⟩ | ⟨-, fill⟩ <;>
        rw [fill] at act <;> cases act
      · have left := Host.line?_updateLine_self (h := u.scene.reactor.host.later) known
          ({ · with inbound := w.inbound.drop Host.readLimit })
        refine ⟨⟨e, held, stream⟩, ⟨queue, waiting, ?_⟩, _, left, home, peer, fun _ idle => by cases idle⟩
        simpa [taken, finished, Phase.after, Phase.held] using complete
      · refine ⟨⟨e, held, stream⟩, ⟨queue, waiting, ?_⟩, w, known, home, peer, fun _ idle => by cases idle⟩
        simpa [taken, finished, Phase.after, Phase.held] using complete
      · refine ⟨⟨e, held, stream⟩, ⟨queue, waiting, ?_⟩, w, known, home, peer, fun _ idle => by cases idle⟩
        simpa [taken, finished, Phase.after, Phase.held] using complete
  | draining kept =>
      have kept' : u.phase.held = kept := by
        rcases phase : u.phase with _ | point | _ <;> rw [phase] at turn <;> cases turn
        rfl
      rw [taken, kept'] at complete
      rw [takeAct, Site.dequeue, waiting] at act
      cases queue with
      | nil =>
          cases act
          refine ⟨⟨e, held, stream⟩, ⟨[], waiting, ?_⟩, w, known, home, peer, fun waits => absurd ?_ waits⟩
          · simpa [taken, finished, Phase.after, Phase.held] using complete
          · exact congrArg (·.getD []) waiting
      | cons notice queue =>
          cases act
          refine ⟨⟨e, held, stream⟩, ⟨queue, rfl, ?_⟩, w, known, home, peer, fun _ idle => by cases idle⟩
          simpa [taken, finished, Phase.after, Phase.held] using complete

theorem Linked.step (linked : Linked line u) (step : Step id line u v) : Linked line v := by
  obtain ⟨e, held, stream⟩ := linked.stream
  obtain ⟨queue, waiting, complete⟩ := linked.complete
  obtain ⟨w, known, home, peer, woken⟩ := linked.woken
  cases step with
  | call notice =>
      refine ⟨⟨e, held, stream⟩, ⟨queue, waiting, complete⟩, w, known, home, peer, fun waits idle none => ?_⟩
      exact woken waits idle fun mem => none (List.mem_append_left _ mem)
  | @caller before after point outcome site among act =>
      cases point with
      | queueing notice =>
          rw [Site.notifyAct, Site.enqueue, waiting] at act
          cases act
          refine ⟨⟨e, held, stream⟩, ⟨queue ++ [notice], rfl, ?_⟩, w, known, home, peer, fun _ _ none => ?_⟩
          · rw [← List.append_assoc]
            exact congrArg (· ++ [notice]) complete
          · exact absurd (by simp) none
      | waking =>
          obtain ⟨-, state, contents, w, known, home, peer, some⟩ := wake_rouses (siteOf u.scene) known home peer
          cases act
          refine ⟨⟨e, held, ?_⟩, ⟨queue, ?_, ?_⟩, w, known, home, peer, fun _ _ _ => some⟩
          · exact (congrFun contents e).trans stream
          · exact (congrArg State.notices state).trans waiting
          · exact complete.trans (List.append_nil _).symm
  | handler turn act => exact linked.handler turn act
  | beside apart =>
      refine ⟨⟨e, (congrArg Receiver.endpoint apart.receiver).trans held, apart.stream e stream⟩,
        ⟨queue, apart.notices.trans waiting, complete⟩, w, apart.bytes.trans known, home, peer, fun waits => woken ?_⟩
      rwa [Wakeup.queue, Site.queued, apart.notices] at waits

theorem Reachable.linked (reachable : Reachable id line u) : Linked line u := by
  induction reachable with
  | start sound numbered linked => exact linked_start sound numbered linked
  | step _ step ih => exact ih.step step

/-- Nothing is lost, repeated or brought out of order, and no notice waits without a byte to read. The acts of a call and
of the handler are, with nothing in between, what `notify` and the handler do. -/
theorem Reachable.nothing_lost (reachable : Reachable id line u) : u.taken ++ u.queue = u.sent ∧
    (u.queue ≠ [] → u.phase = .idle → .waking ∉ u.callers → u.unread line ≠ []) ∧
    (∀ notice, ((siteOf u.scene).notify ⟨line⟩ notice).1 = .ok () ∧
      Uninterrupted (Site.notifyAct ⟨line⟩) (.queueing notice) (siteOf u.scene)
        ((siteOf u.scene).notify ⟨line⟩ notice).1 ((siteOf u.scene).notify ⟨line⟩ notice).2) ∧
    ∃ outcome t, Uninterrupted (takeAct id) .reading u.scene outcome t ∧
      (ofKind .filterBackend id).run.run u.scene = match outcome with
        | .error message => (.error message, t)
        | .ok notices => (((siteOf t).applyNotices notices).1.mapError DaemonError.message,
            placed t ((siteOf t).applyNotices notices).2) := by
  obtain ⟨-, ⟨queue, waiting, complete⟩, w, known, home, peer, woken⟩ := reachable.linked
  refine ⟨?_, ?_, fun notice => ⟨?_, Site.notify_uninterrupted _ _ _⟩, backend_uninterrupted id u.scene⟩
  · rw [Wakeup.queue, Site.queued, waiting]
    exact complete
  · rw [unread, known]
    exact woken
  · let site : Site := { siteOf u.scene with state := { u.scene.state with notices := some (queue ++ [notice]) } }
    have queued : (siteOf u.scene).enqueue notice = (true, site) := by rw [Site.enqueue, waiting]
    rw [Site.notify, queued]
    exact (wake_rouses site known home peer).1

end Wakeup

namespace Rousing

open Wakeup

def quiet : Filter.MessageFilter where
  name := "quiet"
  backend := some "panel"
  chain := ⟨[.restrictive "quiet"]⟩
  registry := {}
  defaultLevel := 100
  level := 100
  current := 0
  current_lt := by decide

def site : Site := { state := { settings := {}, filter := quiet }, reactor := {} }

theorem site_sound : site.reactor.host.Sound := ⟨List.nodup_nil, by rintro e ⟨⟩⟩

theorem site_numbered : ∀ p ∈ site.reactor.host.lines, p.1 < site.reactor.host.next := by rintro p ⟨⟩

theorem last_waits : ∃ u line, Reachable 7 line u ∧ u.sent = [.connected 30, .levelChanged 70, .disconnected] ∧
    u.taken = [.connected 30, .levelChanged 70] ∧ u.queue = [.disconnected] ∧ u.unread line ≠ [] := by
  have started := @Reachable.start 7 _ _ _ _ site_sound site_numbered rfl
  have first := ((started.step (.call (.connected 30))).step (@Step.caller _ _ _ [] [] _ _ _ rfl rfl)).step
    (@Step.caller _ _ _ [] [] _ _ _ rfl rfl)
  have read := (first.step (.handler rfl rfl)).step (.handler rfl rfl)
  have second := ((read.step (.handler rfl rfl)).step (.call (.levelChanged 70))).step
    (@Step.caller _ _ _ [] [] _ _ _ rfl rfl)
  have idle := (second.step (.handler rfl rfl)).step (.handler rfl rfl)
  have third := (idle.step (.call .disconnected)).step (@Step.caller _ _ _ [.waking] [] _ _ _ rfl rfl)
  have last := (third.step (@Step.caller _ _ _ [] [.waking] _ _ _ rfl rfl)).step (@Step.caller _ _ _ [] [] _ _ _ rfl rfl)
  refine ⟨_, _, last, rfl, rfl, rfl, ?_⟩
  exact last.nothing_lost.2.1 (by decide) rfl (by decide)

end Rousing

end TraceGate
