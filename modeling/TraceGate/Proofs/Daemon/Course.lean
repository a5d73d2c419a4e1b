import TraceGate.Proofs.Daemon.Frames
import TraceGate.Proofs.Daemon.Moves

namespace TraceGate

structure Serving where
  request : Request
  site : Site

def Serving.answer (v : Serving) : Response := (v.site.serve v.request).1

def Serving.after (v : Serving) : Site := (v.site.serve v.request).2

def Serving.leave (v : Serving) (receiver : Receiver) (host : Host) : Scene State :=
  ⟨receiver, { v.after.reactor with host }, v.after.state⟩

namespace Handlers

inductive Reading where
  | filled
  | nothing
  | lost
deriving DecidableEq, Repr

def Reading.of : Except SystemError Fill → Reading
  | .ok (.data _) => filled
  | .ok .wouldBlock => nothing
  | .ok .closed => lost
  | .error _ => lost

def reading (s : Scene State) : Reading := .of (s.receiver.fill s.reactor.host).1

def filled (s : Scene State) : Scene State :=
  { s with receiver := (s.receiver.fill s.reactor.host).2.1,
           reactor := { s.reactor with host := (s.receiver.fill s.reactor.host).2.2 } }

theorem read_run (id : Nat) (rest : Turn State Unit) (s : Scene State) :
    (do if ← fillOrDrop id then rest : Turn State Unit).run.run s = match reading s with
      | .filled => rest.run.run (filled s)
      | .nothing => (.ok (), filled s)
      | .lost => (dropPeer id).run.run (filled s) := by
  have dropped : ∀ s, ((do dropPeer id; pure false : Turn State Bool) >>= fun read =>
      if read then rest else pure ()).run.run s = (dropPeer id).run.run s := by
    intro s
    rw [Turn.run_bind, Turn.run_bind]
    rcases (dropPeer id).run.run s with ⟨_ | _, s'⟩ <;> rfl
  rw [fillOrDrop, bind_assoc, Turn.run_receiver, reading, filled]
  rcases s.receiver.fill s.reactor.host with ⟨outcome, receiver, host⟩
  cases outcome with
  | error e => exact dropped _
  | ok fill =>
      cases fill with
      | data count => rfl
      | wouldBlock => rfl
      | closed => exact dropped _

theorem stream_read (id : Nat) (s : Scene State) : (stream id).run.run s = match reading s with
    | .filled => (serveAll id ((filled s).receiver.buffer.length + 1)).run.run (filled s)
    | .nothing => (.ok (), filled s)
    | .lost => (dropPeer id).run.run (filled s) := read_run id _ s

/-- How a call of a stream's handler ends. -/
inductive Ending where
  | idle
  | lost
  | waiting
  | unfit
  | unanswered
deriving DecidableEq, Repr

def Ending.removes : Ending → Bool
  | idle => false
  | lost => true
  | waiting => false
  | unfit => true
  | unanswered => true

structure Call where
  served : List Serving
  ending : Ending
  scene : Scene State

def serveCall : (fuel : Nat) → Scene State → Call
  | 0, s => ⟨[], .waiting, s⟩
  | fuel + 1, s =>
    match Request.decode? s.receiver.buffer with
    | .error _ => ⟨[], .unfit, s⟩
    | .ok none => ⟨[], .waiting, s⟩
    | .ok (some (request, length)) =>
      let v : Serving := ⟨request, ⟨s.state, s.reactor⟩⟩
      let receiver := s.receiver.consume length
      match receiver.send v.answer.encode v.after.reactor.host with
      | (.error _, host) => ⟨[v], .unanswered, v.leave receiver host⟩
      | (.ok (), host) =>
        let rest := serveCall fuel (v.leave receiver host)
        { rest with served := v :: rest.served }

def streamCall (s : Scene State) : Call :=
  match reading s with
  | .filled => serveCall ((filled s).receiver.buffer.length + 1) (filled s)
  | .nothing => ⟨[], .idle, filled s⟩
  | .lost => ⟨[], .lost, filled s⟩

def Call.run (id : Nat) (call : Call) : Except String Unit × Scene State :=
  if call.ending.removes then (dropPeer id).run.run call.scene else (.ok (), call.scene)

variable {id fuel : Nat} {s : Scene State}

theorem serveAll_run (id fuel : Nat) (s : Scene State) : (serveAll id fuel).run.run s = (serveCall fuel s).run id := by
  induction fuel generalizing s with
  | zero => rfl
  | succ fuel ih =>
      rw [serveAll, takeRequest, Turn.run_receiver, serveCall]
      cases decoded : Request.decode? s.receiver.buffer with
      | error fault => rfl
      | ok frame =>
          cases frame with
          | none => rfl
          | some frame =>
              obtain ⟨request, length⟩ := frame
              dsimp only
              rw [run_site, Turn.run_receiver]
              dsimp only [placed, Serving.answer, Serving.after, Serving.leave]
              rcases (s.receiver.consume length).send (Site.serve request ⟨s.state, s.reactor⟩).1.encode
                (Site.serve request ⟨s.state, s.reactor⟩).2.reactor.host with ⟨outcome, host⟩
              cases outcome with
              | error e => rfl
              | ok => exact ih _

theorem stream_run (id : Nat) (s : Scene State) : (stream id).run.run s = (streamCall s).run id := by
  rw [stream_read, streamCall]
  cases reading s with
  | filled => exact serveAll_run id _ _
  | nothing => rfl
  | lost => rfl

inductive Serves : Scene State → Call → Prop
  | waiting {s : Scene State} (incomplete : Request.Incomplete s.receiver.buffer) : Serves s ⟨[], .waiting, s⟩
  | unfit {s : Scene State} (oversized : Request.Oversized s.receiver.buffer) : Serves s ⟨[], .unfit, s⟩
  | unanswered {s : Scene State} {v : Serving} {more : Bytes} {error : SystemError} {host : Host}
      (site : v.site = ⟨s.state, s.reactor⟩) (frame : s.receiver.buffer = v.request.encode ++ more)
      (failed : (s.receiver.consume v.request.encode.length).send v.answer.encode v.after.reactor.host =
        (.error error, host)) :
      Serves s ⟨[v], .unanswered, v.leave (s.receiver.consume v.request.encode.length) host⟩
  | answered {s : Scene State} {v : Serving} {more : Bytes} {host : Host} {rest : Call}
      (site : v.site = ⟨s.state, s.reactor⟩) (frame : s.receiver.buffer = v.request.encode ++ more)
      (sent : (s.receiver.consume v.request.encode.length).send v.answer.encode v.after.reactor.host = (.ok (), host))
      (later : Serves (v.leave (s.receiver.consume v.request.encode.length) host) rest) :
      Serves s { rest with served := v :: rest.served }

theorem serveCall_serves {requests : List Request} {rest : Bytes}
    (framed : Request.Framed s.receiver.buffer requests rest) (enough : requests.length < fuel) :
    Serves s (serveCall fuel s) := by
  induction requests generalizing s fuel with
  | nil =>
      obtain ⟨fuel, rfl⟩ := Nat.exists_eq_add_of_lt enough
      have buffer : s.receiver.buffer = rest := framed.split
      rw [serveCall]
      rcases framed.ends with incomplete | oversized
      · rw [← buffer] at incomplete
        rw [incomplete.decode?]
        exact .waiting incomplete
      · rw [← buffer] at oversized
        obtain ⟨fault, refused⟩ := oversized.decode?
        rw [refused]
        exact .unfit oversized
  | cons request requests ih =>
      obtain ⟨fuel, rfl⟩ := Nat.exists_eq_add_of_lt enough
      have frame : s.receiver.buffer = request.encode ++ (requests.flatMap Request.encode ++ rest) := by
        rw [framed.split, List.flatMap_cons, List.append_assoc]
      have left : (s.receiver.consume request.encode.length).buffer = requests.flatMap Request.encode ++ rest := by
        rw [Receiver.consume, frame, List.drop_left]
      have decoded := Request.decode?_encode (framed.fits request List.mem_cons_self)
        (requests.flatMap Request.encode ++ rest)
      rw [← frame] at decoded
      let v : Serving := ⟨request, ⟨s.state, s.reactor⟩⟩
      rw [serveCall, decoded]
      dsimp only
      split <;> rename_i sent
      · exact .unanswered (v := v) rfl frame sent
      · rename_i host
        refine .answered (v := v) rfl frame sent (ih ⟨left, ?_, framed.ends⟩ ?_)
        · exact fun r mem => framed.fits r (List.mem_cons_of_mem _ mem)
        · rw [List.length_cons]
          omega

theorem streamCall_serves (read : reading s = .filled) : Serves (filled s) (streamCall s) := by
  obtain ⟨requests, rest, framed⟩ := Request.exists_framed (filled s).receiver.buffer
  rw [streamCall, read]
  exact serveCall_serves framed (Nat.lt_succ_of_le framed.length_le)

variable {call : Call}

theorem Serves.keys (serves : Serves s call) : s.reactor.keys <+: call.scene.reactor.keys := by
  have step {v : Serving} {t : Scene State} (site : v.site = ⟨t.state, t.reactor⟩) :
      t.reactor.keys <+: v.after.reactor.keys := by
    have grown := Site.prefix_serve v.request v.site
    rw [site] at grown
    rw [Serving.after, site]
    exact grown
  induction serves with
  | waiting incomplete => exact List.prefix_refl _
  | unfit oversized => exact List.prefix_refl _
  | unanswered site => exact step site
  | answered site _ _ _ ih => exact (step site).trans ih

theorem Serves.moves (serves : Serves s call) (id : Nat) : Moves .controlMsg id s call.scene := by
  have step {v : Serving} {t : Scene State} (site : v.site = ⟨t.state, t.reactor⟩) (length : Nat) (bytes : Bytes) :
      Moves .controlMsg id t (v.leave (t.receiver.consume length)
        ((t.receiver.consume length).send bytes v.after.reactor.host).2) := by
    obtain ⟨request, _⟩ := v
    cases site
    have taken : Moves .controlMsg id t { t with receiver := t.receiver.consume length } :=
      .single (.use rfl (.refl _) (.refl _))
    have served : Does .controlMsg id (Turn.site (Site.serve request)) :=
      fun s => Deeds.moves (performs_serve (by decide) request s)
    have sent := Host.Still.sendFrom (t.receiver.consume length) bytes (Site.serve request ⟨t.state, t.reactor⟩).2.reactor.host
    exact (taken.trans (served { t with receiver := t.receiver.consume length })).tail (.use rfl sent.grows sent.houses)
  induction serves with
  | waiting incomplete => exact .refl
  | unfit oversized => exact .refl
  | @unanswered s v _ _ _ site _ failed =>
      have moved := step site v.request.encode.length v.answer.encode
      rw [failed] at moved
      exact moved
  | @answered s v _ _ _ site _ sent _ ih =>
      have moved := step site v.request.encode.length v.answer.encode
      rw [sent] at moved
      exact moved.trans ih

def drained (id : Nat) (s : Scene State) : Except String Unit × Scene State :=
  (drainWake id ((s.receiver.endpoint.map s.reactor.host.unread).getD 0 + 1)).run.run s

theorem backend_run (id : Nat) (s : Scene State) : (backend id).run.run s = match drained id s with
    | (.error message, t) => (.error message, t)
    | (.ok (), t) =>
      let (notices, site) := (siteOf t).takeNotices
      ((site.applyNotices notices).1.mapError DaemonError.message, placed t (site.applyNotices notices).2) := by
  change ((do
    drainWake id ((s.receiver.endpoint.map s.reactor.host.unread).getD 0 + 1)
    let notices ← Turn.site Site.takeNotices
    Turn.orFail DaemonError.message (← Turn.site (Site.applyNotices notices)) : Turn State Unit)).run.run s = _
  rw [Turn.run_bind]
  unfold drained
  generalize (drainWake id ((s.receiver.endpoint.map s.reactor.host.unread).getD 0 + 1)).run.run s = outcome
  obtain ⟨_ | _, t⟩ := outcome
  · rfl
  · dsimp only
    rw [run_site, run_site]
    rcases (siteOf t).takeNotices with ⟨notices, site⟩
    dsimp only [placed]
    rcases site.applyNotices notices with ⟨_ | _, final⟩ <;> rfl

end Handlers

end TraceGate
