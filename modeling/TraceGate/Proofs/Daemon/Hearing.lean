import TraceGate.Proofs.Daemon.Acts
import TraceGate.Proofs.Daemon.Stream

namespace TraceGate

open Connection

namespace Site

variable {c : Connection} {e : Endpoint} {n : Nat} {w w₀ : Host.Wire} {s₀ s : Site}
  {got written buffer bytes rest : Bytes} {requests : List Request} {wait : Wait} {flags : Flags}

structure Serving (c : Connection) (e : Endpoint) (n : Nat) (w₀ : Host.Wire) (s₀ : Site) (got : Bytes)
    (requests : List Request) (buffer : Bytes) (w : Host.Wire) (s : Site) : Prop where
  coherent : s.reactor.Coherent none
  state : s.state = (s₀.serveEach requests).2.state
  bare : s.reactor.bare n c.id = (s₀.serveEach requests).2.reactor.bare n c.id
  attends : s.Attends (c.hold ⟨some e, buffer⟩) e n w
  origin : ∃ w, (s₀.serveEach requests).2.Attends c e n w
  framed : Request.Framed (requests.flatMap Request.encode ++ buffer) requests buffer
  incomplete : Request.Incomplete buffer
  written : got ++ w.line.outbound = w₀.line.outbound ++ (s₀.replies requests).flatten
  after : w₀.After w
  homeOpen : w.line.homeOpen = true
  peerOpen : w.line.peerOpen = true

structure Removed (c : Connection) (e : Endpoint) (n : Nat) (s₀ : Site) (requests : List Request)
    (written got : Bytes) (s : Site) : Prop where
  coherent : s.reactor.Coherent none
  state : s.state = (s₀.serveEach requests).2.state
  connections : s.reactor.connections = (s₀.serveEach requests).2.reactor.connections.eraseP (·.id == c.id)
  absent : s.reactor.connection? c.id = none
  line : ∃ v, s.reactor.host.line? n = some v ∧ v.homeOpen = false ∧ got ++ v.outbound = written
  closed : ∀ e', s.reactor.host.IsOpen e' → e'.fd ≠ e.fd

def toRead (e : Endpoint) (s : Site) : Nat := s.reactor.host.unread e + s.reactor.host.faults.length

theorem Serving.unread (serving : Serving c e n w₀ s₀ got requests buffer w s) :
    s.reactor.host.unread e = w.line.inbound.length := by
  have carries := serving.attends.attached.carries
  rw [Host.unread, carries.stream]
  dsimp only
  rw [carries.line]
  rfl

theorem Serving.toRead (serving : Serving c e n w₀ s₀ got requests buffer w s) :
    s.toRead e = w.line.inbound.length + w.faults.length := by
  rw [Site.toRead, serving.unread, serving.attends.attached.carries.faults]

theorem Serving.framed_append (serving : Serving c e n w₀ s₀ got requests buffer w s) {next : List Request}
    (ahead : Request.Framed (buffer ++ bytes) next rest) :
    Request.Framed (requests.flatMap Request.encode ++ (buffer ++ bytes)) (requests ++ next) rest := by
  rw [← List.append_assoc]
  exact serving.framed.append ahead

/-- What one read gives may complete some requests; with those served before they are the first of all. -/
theorem Serving.first (serving : Serving c e n w₀ s₀ got requests buffer w s) {more last : Bytes}
    {all next served : List Request} (ahead : Request.Framed (buffer ++ bytes) next rest)
    (framed : Request.Framed (requests.flatMap Request.encode ++ (buffer ++ bytes) ++ more) all last)
    (first : served <+: next) : requests ++ served <+: all :=
  ((List.prefix_append_right_inj _).2 first).trans ((serving.framed_append ahead).first framed)

theorem Removed.unread (removed : Removed c e n s₀ requests written got s) : s.reactor.host.unread e = 0 := by
  unfold Host.unread
  cases known : s.reactor.host.content? e with
  | none => rfl
  | some content => exact absurd rfl (removed.closed e (Host.isOpen_iff.2 ⟨_, Host.mem_of_content? known⟩))

theorem Serving.setLine (serving : Serving c e n w₀ s₀ got requests buffer w s) {f : Host.Line → Host.Line}
    (under : ∀ v : Host.Line, (f v).bare = v.bare) (grows : s.reactor.host.Grows (s.reactor.host.updateLine n f))
    {got' : Bytes} (same : got' ++ (f w.line).outbound = got ++ w.line.outbound)
    (homeOpen : (f w.line).homeOpen = w.line.homeOpen) (peerOpen : (f w.line).peerOpen = w.line.peerOpen) :
    Serving c e n w₀ s₀ got' requests buffer { w with line := f w.line }
      (s.setHost (s.reactor.host.updateLine n f)) := by
  have carries := serving.attends.attached.carries
  have blank := Host.blank_updateLine under s.reactor.host n s.reactor.host.faults
  have carries' := carries.setLine (f := f) rfl s.reactor.host.faults
  rw [show ({ w with line := f w.line, faults := s.reactor.host.faults } : Host.Wire) = { w with line := f w.line } by
    rw [carries.faults]] at carries'
  exact {
    coherent := serving.coherent.grow grows
    state := serving.state
    bare := (Reactor.bare_setHost blank c.id).trans serving.bare
    attends := ⟨⟨serving.attends.attached.found, serving.attends.attached.unshared, carries'⟩, serving.attends.configured⟩
    origin := serving.origin
    framed := serving.framed
    incomplete := serving.incomplete
    written := same.trans serving.written
    after := ⟨serving.after.faults, serving.after.uptake⟩
    homeOpen := homeOpen.trans serving.homeOpen
    peerOpen := peerOpen.trans serving.peerOpen }

theorem Serving.writeLine (serving : Serving c e n w₀ s₀ got requests buffer w s) (bytes : Bytes) :
    Serving c e n w₀ s₀ got requests buffer { w with line := { w.line with inbound := w.line.inbound ++ bytes } }
      (s.setHost (s.reactor.host.writeLine n bytes).2) := by
  have carries := serving.attends.attached.carries
  by_cases empty : bytes = []
  · have same : s.reactor.host.writeLine n bytes = (true, s.reactor.host) := by
      unfold Host.writeLine
      rw [carries.line, empty]
      rfl
    rw [same, empty, List.append_nil]
    exact serving
  · have grows := (Host.Still.writeLine s.reactor.host n bytes).grows
    rw [Host.writeLine_eq carries.line serving.homeOpen empty] at grows ⊢
    exact serving.setLine (f := ({ · with inbound := w.line.inbound ++ bytes })) (fun _ => rfl) grows rfl rfl rfl

theorem Removed.writeLine (removed : Removed c e n s₀ requests written got s) (bytes : Bytes) :
    s.setHost (s.reactor.host.writeLine n bytes).2 = s := by
  obtain ⟨v, line, gone, -⟩ := removed.line
  have same : (s.reactor.host.writeLine n bytes).2 = s.reactor.host := by
    unfold Host.writeLine
    rw [line]
    dsimp only
    split
    · rfl
    · rw [gone]
      rfl
  rw [same]
  rfl

theorem Serving.drainLine (serving : Serving c e n w₀ s₀ got requests buffer w s) :
    Serving c e n w₀ s₀ (got ++ (s.reactor.host.drainLine n).1.1) requests buffer
      { w with line := { w.line with outbound := [], charge := 0 } } (s.setHost (s.reactor.host.drainLine n).2) := by
  have carries := serving.attends.attached.carries
  have drained : s.reactor.host.drainLine n = ((w.line.outbound, !w.line.homeOpen),
      s.reactor.host.updateLine n ({ · with outbound := [], charge := 0 })) := by
    unfold Host.drainLine
    rw [carries.line]
  have grows := (Host.Still.drainLine s.reactor.host n).grows
  rw [drained] at grows ⊢
  exact serving.setLine (f := ({ · with outbound := [], charge := 0 })) (fun _ => rfl) grows
    (by rw [List.append_assoc]; exact congrArg _ (List.append_nil _)) rfl rfl

theorem Removed.drainLine (removed : Removed c e n s₀ requests written got s) :
    Removed c e n s₀ requests written (got ++ (s.reactor.host.drainLine n).1.1)
      (s.setHost (s.reactor.host.drainLine n).2) := by
  obtain ⟨v, line, gone, split⟩ := removed.line
  have drained : s.reactor.host.drainLine n = ((v.outbound, !v.homeOpen),
      s.reactor.host.updateLine n ({ · with outbound := [], charge := 0 })) := by
    unfold Host.drainLine
    rw [line]
  have grows := (Host.Still.drainLine s.reactor.host n).grows
  rw [drained] at grows ⊢
  exact {
    coherent := removed.coherent.grow grows
    state := removed.state
    connections := removed.connections
    absent := removed.absent
    line := ⟨_, Host.line?_updateLine_self line _, gone, by rw [← split, List.append_nil]⟩
    closed := removed.closed }

theorem Removed.round (removed : Removed c e n s₀ requests written got s) (sees : wait.SeesOnly e.fd flags s.reactor) :
    ∃ q, s.reactor.round wait Handlers.ofKind s.state = (.ok 0, q, s.state) ∧
      Removed c e n s₀ requests written got ⟨s.state, q⟩ := by
  have coherent := removed.coherent.round wait Handlers.ofKind_acts s.state
  obtain ⟨table, -, round⟩ := removed.coherent.round_of_absent Handlers.ofKind
    (fun e' isOpen same => removed.closed e' isOpen (Int.ofNat.inj same)) sees s.state
  rw [round] at coherent
  exact ⟨_, round, { removed with coherent := coherent.1 }⟩

theorem Serving.mirrors (serving : Serving c e n w₀ s₀ got requests buffer w s) (client : c.IsClient e)
    {table : Table} (plain : table.plain = s.reactor.table.plain) :
    Handlers.Mirrors c e n w buffer (s₀.serveEach requests).2
      (({ s.reactor with table } : Reactor).opening c.id ⟨some e, buffer⟩ s.state) := by
  have attached := (serving.attends.attached.with_table table).change (f := Connection.lend) fun _ => rfl
  have lent : (c.hold ⟨some e, buffer⟩).lend = c.lend := by
    change ({ c with receiver := none, fd := some e.fd } : Connection) = { c with receiver := none }
    rw [← client.own]
  rw [lent] at attached
  have bare := Reactor.bare_update (f := Connection.lend) (r := { s.reactor with table }) serving.attends.attached.found
    (fun _ => rfl) rfl n
  exact ⟨serving.state, (bare.trans (Reactor.bare_with_table plain n c.id)).trans serving.bare, rfl,
    ⟨attached, serving.attends.configured⟩, serving.origin⟩

theorem Serving.of_mirrors {scene : Scene State} (client : c.IsClient e)
    (mirrors : Handlers.Mirrors c e n w buffer (s₀.serveEach requests).2 scene)
    (coherent : (scene.reactor.restore c.id scene.receiver).Coherent none)
    (framed : Request.Framed bytes requests buffer) (incomplete : Request.Incomplete buffer)
    (written : got ++ w.line.outbound = w₀.line.outbound ++ (s₀.replies requests).flatten) (after : w₀.After w)
    (homeOpen : w.line.homeOpen = true) (peerOpen : w.line.peerOpen = true) :
    Serving c e n w₀ s₀ got requests buffer w ⟨scene.state, scene.reactor.restore c.id scene.receiver⟩ := by
  obtain ⟨bare, attends⟩ := mirrors.restore client
  exact ⟨coherent, mirrors.state, bare, attends, mirrors.origin, framed.split ▸ framed, incomplete, written,
    after, homeOpen, peerOpen⟩

theorem Removed.of_mirrors {scene : Scene State} {table : Table} {counts : Vector Nat 15}
    {connections : List Connection} {left : Bytes}
    (mirrors : Handlers.Mirrors c e n w left (s₀.serveEach requests).2 scene)
    (same : connections = (s₀.serveEach requests).2.reactor.connections.eraseP (·.id == c.id))
    (absent : ({ scene.reactor with table, counts, connections } : Reactor).connection? c.id = none)
    (coherent :
      (({ scene.reactor with table, counts, connections } : Reactor).restore c.id scene.receiver).Coherent none)
    (sound : scene.reactor.host.Sound) (written : got ++ w.line.outbound = bytes) :
    Removed c e n s₀ requests bytes got
      ⟨scene.state, ({ scene.reactor with table, counts, connections } : Reactor).restore c.id scene.receiver⟩ := by
  have carries := mirrors.attends.attached.carries
  have isOpen : scene.reactor.host.IsOpen e := Host.isOpen_iff.2 ⟨_, Host.mem_of_content? carries.stream⟩
  have closed : ({ scene.reactor with table, counts, connections } : Reactor).restore c.id scene.receiver =
      { scene.reactor with table, counts, connections, host := scene.reactor.host.close e } := by
    rw [mirrors.receiver, Reactor.restore, absent]
    rfl
  rw [closed] at coherent ⊢
  refine ⟨coherent, mirrors.state, same, absent, ⟨{ w.line with homeOpen := false }, ?_, rfl, written⟩,
    fun e' isOpen' fd => ?_⟩
  · have line (endpoints : List (Endpoint × Host.Content)) :
        ({ scene.reactor.host with endpoints } : Host).line? n = some w.line := carries.line
    unfold Host.close
    rw [carries.stream]
    exact Host.line?_updateLine_self (line _) _
  · obtain ⟨before, other⟩ := (Host.close_isOpen _ _ _).1 isOpen'
    exact other (sound.eq_of_fd before isOpen fd)

/-- What a round comes to in which only the client's descriptor is ready. -/
inductive Heard (c : Connection) (e : Endpoint) (n : Nat) (flags : Flags) (w₀ : Host.Wire) (s₀ : Site)
    (got : Bytes) (requests : List Request) (buffer : Bytes) (w : Host.Wire) : Site → Prop
  | nothing {s : Site} (none : flags = 0) (serving : Serving c e n w₀ s₀ got requests buffer w s) :
      Heard c e n flags w₀ s₀ got requests buffer w s
  | blocked {s : Site} (gives : ¬w.Gives) (serving : Serving c e n w₀ s₀ got requests buffer w.later s) :
      Heard c e n flags w₀ s₀ got requests buffer w s
  | answered {s : Site} {more : List Request} {rest : Bytes} {w' : Host.Wire} (gives : w.Gives)
      (framed : Request.Framed (buffer ++ w.line.inbound.take Host.readLimit) more rest)
      (inbound : w'.line.inbound = w.line.inbound.drop Host.readLimit) (later : w.After w')
      (serving : Serving c e n w₀ s₀ got (requests ++ more) rest w' s) :
      Heard c e n flags w₀ s₀ got requests buffer w s
  | oversized {s : Site} {more : List Request} {rest : Bytes}
      (framed : Request.Framed (buffer ++ w.line.inbound.take Host.readLimit) more rest)
      (oversized : Request.Oversized rest)
      (removed : Removed c e n s₀ (requests ++ more) (w₀.line.outbound ++ (s₀.replies (requests ++ more)).flatten) got s) :
      Heard c e n flags w₀ s₀ got requests buffer w s
  | broken {s : Site} {served more : List Request} {rest written : Bytes}
      (framed : Request.Framed (buffer ++ w.line.inbound.take Host.readLimit) more rest) (first : served <+: more)
      (breaks : w.Breaks e.kind (s₀.serveEach requests).2 served written)
      (removed : Removed c e n s₀ (requests ++ served) (w₀.line.outbound ++ (s₀.replies requests).flatten ++ written) got s) :
      Heard c e n flags w₀ s₀ got requests buffer w s

theorem Removed.of_drop {start scene : Scene State} {left : Bytes}
    (returns : ∀ t, (Handlers.stream c.id).run.run start = (.ok (), t) →
      t.reactor.host.Sound ∧ (t.reactor.restore c.id t.receiver).Coherent none)
    (client : c.IsClient e) (alone : (s₀.serveEach requests).2.reactor.Alone c.id)
    (mirrors : Handlers.Mirrors c e n w left (s₀.serveEach requests).2 scene) (written : got ++ w.line.outbound = bytes)
    (run : (Handlers.stream c.id).run.run start = (Handlers.dropPeer c.id).run.run scene) :
    ∃ t, (Handlers.stream c.id).run.run start = (.ok (), t) ∧
      Removed c e n s₀ requests bytes got ⟨t.state, t.reactor.restore c.id t.receiver⟩ := by
  obtain ⟨table, counts, dropped, absent, same⟩ := mirrors.drop client alone
  obtain ⟨sound, coherent⟩ := returns _ (run.trans dropped)
  have removed : Removed c e n s₀ requests bytes got ⟨scene.state, _⟩ :=
    .of_mirrors mirrors same absent coherent sound written
  exact ⟨_, run.trans dropped, removed⟩

theorem Serving.call (serving : Serving c e n w₀ s₀ got requests buffer w s) (client : c.IsClient e) {table : Table}
    (plain : table.plain = s.reactor.table.plain)
    (returns : ∀ t, (Handlers.stream c.id).run.run
        (({ s.reactor with table } : Reactor).opening c.id ⟨some e, buffer⟩ s.state) = (.ok (), t) →
      t.reactor.host.Sound ∧ (t.reactor.restore c.id t.receiver).Coherent none)
    (alone : ∀ more rest served, Request.Framed (buffer ++ w.line.inbound.take Host.readLimit) more rest →
      served <+: more → (s₀.serveEach (requests ++ served)).2.reactor.Alone c.id) :
    ∃ t, (Handlers.stream c.id).run.run
        (({ s.reactor with table } : Reactor).opening c.id ⟨some e, buffer⟩ s.state) = (.ok (), t) ∧
      Heard c e n flags w₀ s₀ got requests buffer w ⟨t.state, t.reactor.restore c.id t.receiver⟩ := by
  have whole (more : List Request) : ((s₀.serveEach requests).2.serveEach more).2 = (s₀.serveEach (requests ++ more)).2 := by
    rw [serveEach_append]
  obtain ⟨more, rest, framed⟩ := Request.exists_framed (buffer ++ w.line.inbound.take Host.readLimit)
  obtain ⟨t, ⟨⟨gives, -⟩, after, run⟩ | ⟨gives, after, incomplete, oversized⟩ |
    ⟨served, written, w', left, first, breaks, outbound, after, run⟩⟩ :=
    (serving.mirrors client plain).stream client.steady serving.peerOpen framed c.id
  · exact ⟨t, run, .blocked gives (.of_mirrors client after (returns t run).2 serving.framed serving.incomplete
      serving.written (serving.after.trans w.after_later) serving.homeOpen serving.peerOpen)⟩
  · obtain ⟨charge, line⟩ := w.read.line_sendEach e.kind ((s₀.serveEach requests).2.replies more)
    have written : got ++ (w.read.sendEach e.kind ((s₀.serveEach requests).2.replies more)).line.outbound =
        w₀.line.outbound ++ (s₀.replies (requests ++ more)).flatten := by
      rw [line, replies_append, List.flatten_append, ← List.append_assoc, ← List.append_assoc]
      exact congrArg (· ++ _) serving.written
    rw [whole] at after
    rcases framed.ends with ends | ends
    · have run := incomplete ends
      have later := w.after_read.trans (w.read.after_sendEach e.kind ((s₀.serveEach requests).2.replies more))
      refine ⟨t, run, .answered gives framed ?_ later (.of_mirrors client after (returns t run).2
        (serving.framed.append framed) ends written (serving.after.trans later) ?_ ?_)⟩
      · rw [line]
        rfl
      · rw [line]
        exact serving.homeOpen
      · rw [line]
        exact serving.peerOpen
    · obtain ⟨t', run, removed⟩ := Removed.of_drop returns client (alone more rest more framed (List.prefix_refl _)) after
        written (oversized ends)
      exact ⟨t', run, .oversized framed ends removed⟩
  · rw [whole] at after
    obtain ⟨t', run, removed⟩ := Removed.of_drop returns client (alone more rest served framed first) after
      (by rw [outbound, ← List.append_assoc, serving.written]) run
    exact ⟨t', run, .broken framed first breaks removed⟩

theorem Serving.round (serving : Serving c e n w₀ s₀ got requests buffer w s) (client : c.IsClient e)
    (sees : wait.SeesOnly e.fd flags s.reactor) (fine : Flags.meets flags (Flags.failed ||| Flags.notOpen) = false)
    (alone : ∀ more rest served, Request.Framed (buffer ++ w.line.inbound.take Host.readLimit) more rest →
      served <+: more → (s₀.serveEach (requests ++ served)).2.reactor.Alone c.id) :
    ∃ calls q state', s.reactor.round wait Handlers.ofKind s.state = (.ok calls, q, state') ∧
      Heard c e n flags w₀ s₀ got requests buffer w ⟨state', q⟩ := by
  have coherent := (serving.coherent.round wait Handlers.ofKind_acts s.state).1
  have found := serving.attends.attached.found
  obtain ⟨table, plain, ⟨none, round⟩ | ⟨filled, awake, called⟩⟩ := serving.coherent.round_of_held
    Handlers.ofKind found client.active rfl rfl sees fine s.state
  · rw [round] at coherent
    refine ⟨0, _, s.state, round, .nothing none ?_⟩
    exact { serving with
      coherent
      bare := (Reactor.bare_with_table plain n c.id).trans serving.bare
      attends := ⟨serving.attends.attached.with_table table, serving.attends.configured⟩ }
  · have handler : Handlers.ofKind c.kind = Handlers.stream := by rw [client.kind]; rfl
    change ∀ t, (Handlers.ofKind c.kind c.id).run.run _ = (.ok (), t) →
      s.reactor.round wait Handlers.ofKind s.state = (.ok 1, t.reactor.restore c.id t.receiver, t.state) at called
    have opened : (({ s.reactor with table } : Reactor).opening c.id ⟨some e, buffer⟩ s.state).Coherent c.id :=
      awake.opening (c := c.hold ⟨some e, buffer⟩) found rfl s.state
    have steps := Scene.steps_coherent (Handlers.ofKind_acts c.kind c.id _ opened) opened
    rw [handler] at called steps
    obtain ⟨t, run, heard⟩ := serving.call client plain (fun t run => by
      rw [called t run] at coherent
      rw [run] at steps
      exact ⟨steps.sound, coherent⟩) alone
    exact ⟨1, _, _, called t run, heard⟩

theorem Heard.less (heard : Heard c e n flags w₀ s₀ got requests buffer w s) (filled : flags ≠ 0) :
    s.reactor.host.unread e = 0 ∨
      w.line.inbound.length ≠ 0 ∧ s.toRead e < w.line.inbound.length + w.faults.length := by
  cases heard with
  | nothing none serving => exact absurd none filled
  | blocked gives serving =>
      rw [serving.unread, serving.toRead]
      by_cases empty : w.line.inbound = []
      · exact Or.inl (List.length_eq_zero_iff.2 empty)
      · have met : w.faults ≠ [] := fun none => gives ⟨by rw [Host.Wire.fault?, none]; rfl, empty⟩
        have some := List.length_pos_iff.2 met
        have fewer : w.later.faults.length = w.faults.length - 1 := List.length_tail
        exact Or.inr ⟨mt List.length_eq_zero_iff.1 empty, Nat.add_lt_add_left (by omega) _⟩
  | answered gives framed inbound later serving =>
      have some := List.length_pos_iff.2 gives.2
      have fewer := later.faults.length_le
      rw [serving.toRead, inbound, List.length_drop, Host.readLimit]
      exact Or.inr ⟨some.ne', by omega⟩
  | oversized framed oversized removed => exact Or.inl removed.unread
  | broken framed first breaks removed => exact Or.inl removed.unread

end Site

end TraceGate
