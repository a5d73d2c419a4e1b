import TraceGate.Proofs.Daemon.Course
import TraceGate.Proofs.Daemon.Service
import TraceGate.Proofs.Reactor.Lone

namespace TraceGate

open Connection

structure Connection.IsClient (c : Connection) (e : Endpoint) : Prop where
  kind : c.kind = .controlMsg
  active : c.IsActive
  own : c.fd = some e.fd

theorem Connection.IsClient.steady {c : Connection} {e : Endpoint} (client : c.IsClient e) : c.Steady :=
  ⟨client.active, client.kind ▸ by decide, by rw [client.own]; rfl⟩

namespace Site

def replies (requests : List Request) (s : Site) : List Bytes := (s.serveEach requests).1.map Response.encode

def reply (request : Request) (s : Site) : Bytes := (s.serve request).1.encode

theorem replies_append (requests rest : List Request) (s : Site) :
    s.replies (requests ++ rest) = s.replies requests ++ (s.serveEach requests).2.replies rest := by
  rw [replies, serveEach_append, List.map_append]
  rfl

end Site

inductive Host.Wire.Breaks (kind : EndpointKind) (w : Host.Wire) (t : Site) : List Request → Bytes → Prop
  | unread (fails : w.Fails) : Breaks kind w t [] []
  | unanswered {served : List Request} {request : Request} {taken : Bytes} (gives : w.Gives)
      (refuses : ¬(w.read.sendEach kind (t.replies served)).Takes kind ((t.serveEach served).2.reply request))
      (first : taken <+: (t.serveEach served).2.reply request)
      (short : taken.length < ((t.serveEach served).2.reply request).length) :
      Breaks kind w t (served ++ [request]) ((t.replies served).flatten ++ taken)

theorem Host.Wire.Roomy.not_breaks {kind : EndpointKind} {w : Host.Wire} {t : Site} {served : List Request}
    {written : Bytes} (roomy : w.Roomy) : ¬w.Breaks kind t served written := by
  intro breaks
  cases breaks with
  | unread fails =>
      obtain ⟨fault, met, -⟩ := fails
      cases roomy.fault?.symm.trans met
  | @unanswered served request taken gives refuses =>
      have later := (roomy.after w.after_read).after (w.read.after_sendEach kind (t.replies served))
      exact refuses ⟨later.fault?, later.takes _ _ _⟩

namespace Handlers

variable {c : Connection} {e : Endpoint} {n : Nat} {w : Host.Wire} {t : Site} {s : Scene State}
  {buffer more rest : Bytes} {requests : List Request}

/-- The scene of the client's handler stands where the site does, but for the client's own things. -/
structure Mirrors (c : Connection) (e : Endpoint) (n : Nat) (w : Host.Wire) (buffer : Bytes) (t : Site)
    (s : Scene State) : Prop where
  state : s.state = t.state
  bare : s.reactor.bare n c.id = t.reactor.bare n c.id
  receiver : s.receiver = ⟨some e, buffer⟩
  attends : Site.Attends c.lend e n w ⟨s.state, s.reactor⟩
  origin : ∃ w, t.Attends c e n w

theorem reply_ne_nil (request : Request) (t : Site) : t.reply request ≠ [] := by
  simp [Site.reply, Response.encode, Frame.encodeWord]

theorem Mirrors.same (mirrors : Mirrors c e n w buffer t s) :
    (⟨s.state, s.reactor⟩ : Site).bare n c.id = t.bare n c.id := by
  change (⟨s.state, s.reactor.bare n c.id⟩ : Site) = ⟨t.state, t.reactor.bare n c.id⟩
  rw [mirrors.state, mirrors.bare]

theorem Mirrors.setHost {w' : Host.Wire} {host : Host} (mirrors : Mirrors c e n w buffer t s)
    (carries : host.Carries e n w') (same : host.blank n = s.reactor.host.blank n) (buffer' : Bytes) :
    Mirrors c e n w' buffer' t ⟨⟨some e, buffer'⟩, { s.reactor with host }, s.state⟩ where
  state := mirrors.state
  bare := (Reactor.bare_setHost same c.id).trans mirrors.bare
  receiver := rfl
  attends := ⟨⟨mirrors.attends.attached.found, mirrors.attends.attached.unshared, carries⟩, mirrors.attends.configured⟩
  origin := mirrors.origin

theorem Mirrors.answer (mirrors : Mirrors c e n w buffer t s) (steady : c.Steady) (request : Request) :
    ∃ (state : State) (reactor : Reactor),
      Site.serve request ⟨s.state, s.reactor⟩ = ((t.serve request).1, ⟨state, reactor⟩) ∧
        Mirrors c e n w buffer (t.serve request).2 ⟨s.receiver, reactor, state⟩ := by
  obtain ⟨w₀, origin⟩ := mirrors.origin
  have steady' : c.lend.Steady := ⟨steady.active, steady.standing, steady.known⟩
  obtain ⟨same, after⟩ := origin.serve steady request
  obtain ⟨same', after'⟩ := mirrors.attends.serve steady' request
  change Site.serve request (Site.bare ⟨s.state, s.reactor⟩ n c.id) = _ at same'
  rw [mirrors.same, same] at same'
  rcases served : Site.serve request ⟨s.state, s.reactor⟩ with ⟨response, state, reactor⟩
  rw [served] at same' after'
  dsimp only at same' after'
  obtain ⟨answer, site⟩ := Prod.mk.inj same'
  exact ⟨state, reactor, by rw [answer], (congrArg Site.state site).symm, (congrArg Site.reactor site).symm,
    mirrors.receiver, after', w₀, after⟩

theorem Mirrors.serve {request : Request} (mirrors : Mirrors c e n w (request.encode ++ more) t s) (steady : c.Steady)
    (still : w.line.peerOpen = true) (fits : request.payload.length ≤ Frame.maxPayload) (id fuel : Nat) :
    w.Takes e.kind (t.reply request) ∧ (∃ s', (serveAll id (fuel + 1)).run.run s = (serveAll id fuel).run.run s' ∧
      Mirrors c e n (w.send e.kind (t.reply request)) more (t.serve request).2 s') ∨
    ¬w.Takes e.kind (t.reply request) ∧ ∃ (taken : Bytes) (charge : Nat) (s' : Scene State),
      taken <+: t.reply request ∧ taken.length < (t.reply request).length ∧
        (serveAll id (fuel + 1)).run.run s = (dropPeer id).run.run s' ∧
        Mirrors c e n (w.part taken charge) more (t.serve request).2 s' := by
  obtain ⟨state, reactor, served, after⟩ := mirrors.answer steady request
  have decoded : Request.decode? s.receiver.buffer = .ok (some (request, request.encode.length)) := by
    rw [mirrors.receiver]
    exact Request.decode?_encode fits more
  have consumed : s.receiver.consume request.encode.length = ⟨some e, more⟩ := by
    rw [mirrors.receiver, Receiver.consume, List.drop_left]
  have sent : (s.receiver.consume request.encode.length).send (Serving.answer ⟨request, ⟨s.state, s.reactor⟩⟩).encode
      (Serving.after ⟨request, ⟨s.state, s.reactor⟩⟩).reactor.host = reactor.host.write e (t.reply request) := by
    rw [consumed, Serving.answer, Serving.after, served]
    rfl
  have left (host : Host) : Serving.leave ⟨request, ⟨s.state, s.reactor⟩⟩
      (s.receiver.consume request.encode.length) host = ⟨⟨some e, more⟩, { reactor with host }, state⟩ := by
    rw [consumed, Serving.leave, Serving.after, served]
  rw [serveAll_run, serveCall, decoded]
  dsimp only
  rw [sent]
  rcases after.attends.attached.carries.write still (reply_ne_nil request t) with
    ⟨takes, host, carries, same, write⟩ | ⟨refuses, error, taken, charge, host, first, short, carries, same, write⟩
  · refine Or.inl ⟨takes, _, ?_, after.setHost carries same more⟩
    rw [write]
    dsimp only
    rw [left, serveAll_run]
    rfl
  · refine Or.inr ⟨refuses, taken, charge, _, first, short, ?_, after.setHost carries same more⟩
    rw [write]
    dsimp only
    rw [left]
    rfl

theorem Mirrors.serveAll (mirrors : Mirrors c e n w (requests.flatMap Request.encode ++ rest) t s) (steady : c.Steady)
    (still : w.line.peerOpen = true) (fits : ∀ r ∈ requests, r.payload.length ≤ Frame.maxPayload) (id fuel : Nat) :
    (∃ s', (serveAll id (requests.length + fuel)).run.run s = (serveAll id fuel).run.run s' ∧
      Mirrors c e n (w.sendEach e.kind (t.replies requests)) rest (t.serveEach requests).2 s') ∨
    ∃ (served : List Request) (request : Request) (later : List Request) (taken : Bytes) (charge : Nat)
      (s' : Scene State), requests = served ++ request :: later ∧
        ¬(w.sendEach e.kind (t.replies served)).Takes e.kind ((t.serveEach served).2.reply request) ∧
        taken <+: (t.serveEach served).2.reply request ∧
        taken.length < ((t.serveEach served).2.reply request).length ∧
        (serveAll id (requests.length + fuel)).run.run s = (dropPeer id).run.run s' ∧
        Mirrors c e n ((w.sendEach e.kind (t.replies served)).part taken charge)
          (later.flatMap Request.encode ++ rest) ((t.serveEach served).2.serve request).2 s' := by
  induction requests generalizing s t w with
  | nil => exact Or.inl ⟨s, by rw [List.length_nil, Nat.zero_add], mirrors⟩
  | cons request requests ih =>
      rw [List.flatMap_cons, List.append_assoc] at mirrors
      rw [List.length_cons, Nat.add_right_comm]
      rcases mirrors.serve steady still (fits request List.mem_cons_self) id (requests.length + fuel) with
        ⟨takes, s', run, after⟩ | ⟨refuses, taken, charge, s', first, short, run, after⟩
      · rcases ih after still fun r mem => fits r (List.mem_cons_of_mem _ mem) with
          ⟨s'', run', last⟩ | ⟨served, next, later, taken, charge, s'', split, refuses, first, short, run', last⟩
        · exact Or.inl ⟨s'', run.trans run', last⟩
        · exact Or.inr ⟨request :: served, next, later, taken, charge, s'', by rw [split, List.cons_append], refuses,
            first, short, run.trans run', last⟩
      · exact Or.inr ⟨[], request, requests, taken, charge, s', rfl, refuses, first, short, run, after⟩

theorem serveAll_incomplete (incomplete : Request.Incomplete rest) (held : s.receiver = ⟨some e, rest⟩)
    (id fuel : Nat) : (serveAll id (fuel + 1)).run.run s = (.ok (), s) := by
  rw [Handlers.serveAll, takeRequest, Turn.run_receiver, held]
  dsimp only
  rw [incomplete.decode?, ← held]
  rfl

theorem serveAll_oversized (oversized : Request.Oversized rest) (held : s.receiver = ⟨some e, rest⟩) (id fuel : Nat) :
    (serveAll id (fuel + 1)).run.run s = (dropPeer id).run.run s := by
  obtain ⟨fault, refused⟩ := oversized.decode?
  rw [Handlers.serveAll, takeRequest, Turn.run_receiver, held]
  dsimp only
  rw [refused, ← held]

theorem Mirrors.stream (mirrors : Mirrors c e n w buffer t s) (steady : c.Steady) (still : w.line.peerOpen = true)
    (framed : Request.Framed (buffer ++ w.line.inbound.take Host.readLimit) requests rest) (id : Nat) :
    ∃ s', ((¬w.Gives ∧ ¬w.Fails) ∧ Mirrors c e n w.later buffer t s' ∧ (stream id).run.run s = (.ok (), s')) ∨
      (w.Gives ∧ Mirrors c e n (w.read.sendEach e.kind (t.replies requests)) rest (t.serveEach requests).2 s' ∧
        (Request.Incomplete rest → (stream id).run.run s = (.ok (), s')) ∧
        (Request.Oversized rest → (stream id).run.run s = (dropPeer id).run.run s')) ∨
      ∃ (served : List Request) (written : Bytes) (w' : Host.Wire) (left : Bytes), served <+: requests ∧
        w.Breaks e.kind t served written ∧ w'.line.outbound = w.line.outbound ++ written ∧
        Mirrors c e n w' left (t.serveEach served).2 s' ∧ (stream id).run.run s = (dropPeer id).run.run s' := by
  have held := congrArg Receiver.endpoint mirrors.receiver
  have started := stream_read id s
  unfold reading filled at started
  rcases mirrors.attends.attached.carries.fill held still with
    ⟨gives, host, carries, same, fill⟩ | ⟨fails, error, host, carries, same, fill⟩ | ⟨idle, host, carries, same, fill⟩
  · rw [fill] at started
    dsimp only [Reading.of] at started
    rw [mirrors.receiver] at started
    have begun := mirrors.setHost carries same (buffer ++ w.line.inbound.take Host.readLimit)
    obtain ⟨fuel, enough⟩ : ∃ fuel,
        (buffer ++ w.line.inbound.take Host.readLimit).length + 1 = requests.length + (fuel + 1) := by
      have bound := framed.length_le
      exact ⟨(buffer ++ w.line.inbound.take Host.readLimit).length - requests.length, by omega⟩
    dsimp only at begun
    rw [enough, framed.split] at started
    rw [framed.split] at begun
    rcases begun.serveAll steady still framed.fits id (fuel + 1) with
      ⟨s', run, after⟩ | ⟨served, request, later, taken, charge, s', split, refuses, first, short, run, after⟩
    · refine ⟨s', Or.inr (Or.inl ⟨gives, after, fun incomplete => ?_, fun oversized => ?_⟩)⟩
      · rw [started, run, serveAll_incomplete incomplete after.receiver]
      · rw [started, run, serveAll_oversized oversized after.receiver]
    · have part : served ++ [request] <+: requests := ⟨later, by rw [split, List.append_assoc]; rfl⟩
      obtain ⟨charge', line⟩ := w.read.line_sendEach e.kind (t.replies served)
      have written : ((w.read.sendEach e.kind (t.replies served)).part taken charge).line.outbound =
          w.line.outbound ++ ((t.replies served).flatten ++ taken) := by
        rw [Host.Wire.part, line, ← List.append_assoc]
        rfl
      rw [← Site.serveEach_snoc] at after
      exact ⟨s', Or.inr (Or.inr ⟨_, _, _, _, part, .unanswered gives refuses first short, written, after,
        started.trans run⟩)⟩
  · rw [fill] at started
    dsimp only [Reading.of] at started
    rw [mirrors.receiver] at started
    exact ⟨_, Or.inr (Or.inr ⟨[], [], w.later, buffer, List.nil_prefix, .unread fails, (List.append_nil _).symm,
      mirrors.setHost carries same buffer, started⟩)⟩
  · rw [fill] at started
    dsimp only [Reading.of] at started
    rw [mirrors.receiver] at started
    exact ⟨_, Or.inl ⟨idle, mirrors.setHost carries same buffer, started⟩⟩

theorem Mirrors.restore (mirrors : Mirrors c e n w rest t s) (client : c.IsClient e) :
    (s.reactor.restore c.id s.receiver).bare n c.id = t.reactor.bare n c.id ∧
      Site.Attends (c.hold ⟨some e, rest⟩) e n w ⟨s.state, s.reactor.restore c.id s.receiver⟩ := by
  have found : s.reactor.connection? c.id = some c.lend := mirrors.attends.attached.found
  have own : c.lend.fd = Receiver.fd? ⟨some e, rest⟩ := client.own
  rw [mirrors.receiver, Reactor.restore_of_lent found rfl own]
  have back := mirrors.attends.attached.change (f := (·.hold ⟨some e, rest⟩)) fun _ => rfl
  have same : (c.lend.hold ⟨some e, rest⟩).lend = c.lend := by
    change ({ c with receiver := none, fd := some e.fd } : Connection) = { c with receiver := none }
    rw [← client.own]
  have bare := Reactor.bare_update (f := (·.hold ⟨some e, rest⟩)) found (fun _ => rfl) same n
  exact ⟨bare.trans mirrors.bare, back, mirrors.attends.configured⟩

theorem Mirrors.drop (mirrors : Mirrors c e n w rest t s) (client : c.IsClient e) (alone : t.reactor.Alone c.id) :
    ∃ table counts, (dropPeer c.id).run.run s = (.ok (), { s with reactor := { s.reactor with
        table, counts, connections := s.reactor.connections.eraseP (·.id == c.id) } }) ∧
      ({ s.reactor with table, counts, connections := s.reactor.connections.eraseP (·.id == c.id) } :
        Reactor).connection? c.id = none ∧
      s.reactor.connections.eraseP (·.id == c.id) = t.reactor.connections.eraseP (·.id == c.id) := by
  have found : s.reactor.connection? c.id = some c.lend := mirrors.attends.attached.found
  have other : c.kind ≠ .clientConnect := by rw [client.kind]; decide
  obtain ⟨table, counts, removed⟩ :=
    Reactor.unregister_of_lent (c := c.lend) found client.active other rfl
  have removed : s.reactor.unregister c.id = _ := removed
  have lists : s.reactor.connections.eraseP (·.id == c.id) = t.reactor.connections.eraseP (·.id == c.id) := by
    have erased (r : Reactor) : (r.bare n c.id).connections.eraseP (·.id == c.id) =
        r.connections.eraseP (·.id == c.id) := eraseP_updateFirst (f := Connection.lend) (fun _ => rfl) _
    rw [← erased, mirrors.bare, erased]
  refine ⟨table, counts, ?_, ?_, lists⟩
  · have run : (Turn.reactor (Reactor.unregister c.id) : Turn State (Except EventError Unit)).run.run s =
        (.ok (s.reactor.unregister c.id).1, { s with reactor := (s.reactor.unregister c.id).2 }) := rfl
    rw [dropPeer, Turn.run_bind, run, removed]
    rfl
  · refine List.find?_eq_none.2 fun d mem => ?_
    rw [lists] at mem
    simpa using alone.ne mem

end Handlers

end TraceGate
