import TraceGate.Proofs.Daemon.Hearing
import TraceGate.Proofs.Daemon.Life

namespace TraceGate

open Connection TraceGate.Filter

namespace Daemon

variable {c : Connection} {e : Endpoint} {n : Nat} {w w₀ : Host.Wire} {d₀ d d' : Daemon} {sent got bytes taken rest : Bytes}
  {requests : List Request} {wait : Wait} {flags : Flags}

/-- The daemon has a control client, and nothing is under way from it. -/
structure Expects (c : Connection) (e : Endpoint) (n : Nat) (w : Host.Wire) (d : Daemon) : Prop where
  reachable : d.site.reactor.Reachable
  configured : ∃ config level, MessageFilter.LevelRun config level d.site.state.filter
  mem : c ∈ d.site.reactor.connections
  kind : c.kind = .controlMsg
  active : c.IsActive
  receiver : c.receiver = some ⟨some e, []⟩
  carries : d.site.reactor.host.Carries e n w
  inbound : w.line.inbound = []
  homeOpen : w.line.homeOpen = true
  peerOpen : w.line.peerOpen = true

/-- The client sends some bytes, or takes what waits for it, or the daemon makes a round in which something may be seen
on the client's descriptor, but no failure, and nothing on any other. -/
inductive Exchange (n : Nat) (fd : Int) (d : Daemon) : Bytes → Bytes → Daemon → Prop
  | sends (bytes : Bytes) : Exchange n fd d bytes [] { d with site := d.site.setHost (d.site.reactor.host.writeLine n bytes).2 }
  | takes : Exchange n fd d [] (d.site.reactor.host.drainLine n).1.1
      { d with site := d.site.setHost (d.site.reactor.host.drainLine n).2 }
  | round {wait : Wait} {flags : Flags} (sees : wait.SeesOnly fd flags d.site.reactor)
      (fine : Flags.meets flags (Flags.failed ||| Flags.notOpen) = false) : Exchange n fd d [] [] (d.runOnce wait).2

/-- These bytes have been sent over a line, in pieces, and these were taken from it. -/
inductive Delivery (n : Nat) (fd : Int) (d₀ : Daemon) : Bytes → Bytes → Daemon → Prop
  | start : Delivery n fd d₀ [] [] d₀
  | next {sent got bytes taken : Bytes} {d d' : Daemon} (before : Delivery n fd d₀ sent got d)
      (step : Exchange n fd d bytes taken d') : Delivery n fd d₀ (sent ++ bytes) (got ++ taken) d'

def readRound (fd : Int) (d : Daemon) : Daemon := (d.runOnce (Round.wait [(fd, Flags.input)])).2

theorem Delivery.piece {fd : Int} (delivery : Delivery n fd d₀ sent got d) (bytes : Bytes) :
    Delivery n fd d₀ (sent ++ bytes) got { d with site := d.site.setHost (d.site.reactor.host.writeLine n bytes).2 } := by
  have next := delivery.next (.sends bytes)
  rwa [List.append_nil] at next

theorem Delivery.take {fd : Int} (delivery : Delivery n fd d₀ sent got d) :
    Delivery n fd d₀ sent (got ++ (d.site.reactor.host.drainLine n).1.1)
      { d with site := d.site.setHost (d.site.reactor.host.drainLine n).2 } := by
  have next := delivery.next .takes
  rwa [List.append_nil] at next

theorem Delivery.readRound {fd : Int} (delivery : Delivery n fd d₀ sent got d) :
    Delivery n fd d₀ sent got (d.readRound fd) := by
  have next := delivery.next (.round (Round.wait_seesOnly fd Flags.input _) (by decide))
  rwa [List.append_nil, List.append_nil] at next

/-- What is left when these requests were served and the rest was read. -/
structure Answered (c : Connection) (e : Endpoint) (n : Nat) (w₀ : Host.Wire) (s₀ : Site) (requests : List Request)
    (rest got : Bytes) (d : Daemon) : Prop where
  state : d.site.state = (s₀.serveEach requests).2.state
  line : ∃ v, d.site.reactor.host.line? n = some v ∧ (v.homeOpen = true ↔ Request.Incomplete rest) ∧
    got ++ v.outbound = w₀.line.outbound ++ (s₀.replies requests).flatten
  kept : Request.Incomplete rest → d.site.reactor.connections =
    ((s₀.serveEach requests).2.reactor.update c.id (·.hold ⟨some e, rest⟩)).connections
  dropped : Request.Oversized rest →
    d.site.reactor.connections = (s₀.serveEach requests).2.reactor.connections.eraseP (·.id == c.id) ∧
      d.site.reactor.connection? c.id = none

/-- The client was removed early: in a round on the way a read failed or a reply was not taken. -/
inductive Severed (c : Connection) (e : Endpoint) (n : Nat) (w₀ : Host.Wire) (d₀ : Daemon) (requests : List Request) :
    Bytes → Bytes → Daemon → Prop
  | intro {earlier served : List Request} {written sent more got taken : Bytes} {d₁ d : Daemon} {w : Host.Wire}
      (first : earlier ++ served <+: requests) (begun : Delivery n e.fd d₀ sent got d₁)
      (carries : d₁.site.reactor.host.Carries e n w) (after : w₀.After w) (state : d₁.site.state = (d₀.site.serveEach earlier).2.state)
      (breaks : w.Breaks e.kind (d₀.site.serveEach earlier).2 served written)
      (ended : Delivery n e.fd d₁ more taken d)
      (removed : Site.Removed c e n d₀.site (earlier ++ served)
        (w₀.line.outbound ++ (d₀.site.replies earlier).flatten ++ written) (got ++ taken) d.site) :
      Severed c e n w₀ d₀ requests (sent ++ more) (got ++ taken) d

inductive Phase (c : Connection) (e : Endpoint) (n : Nat) (w₀ : Host.Wire) (d₀ : Daemon) (requests : List Request)
    (rest sent got : Bytes) (d : Daemon) : Prop
  | serving {served : List Request} {buffer : Bytes} {w : Host.Wire}
      (split : sent = served.flatMap Request.encode ++ buffer ++ w.line.inbound)
      (serving : Site.Serving c e n w₀ d₀.site got served buffer w d.site)
  | oversized (oversized : Request.Oversized rest)
      (removed : Site.Removed c e n d₀.site requests (w₀.line.outbound ++ (d₀.site.replies requests).flatten) got d.site)
  | severed (severed : Severed c e n w₀ d₀ requests sent got d)

def furnish (faults : List (Option Fault)) (uptake : EndpointKind → Nat → Nat → Nat × Nat) (d : Daemon) : Daemon :=
  { d with site := d.site.setHost { d.site.reactor.host with faults, uptake } }

theorem Expects.furnish (expects : d.Expects c e n w) (faults : List (Option Fault))
    (uptake : EndpointKind → Nat → Nat → Nat × Nat) :
    (d.furnish faults uptake).Expects c e n { w with faults, uptake } := by
  have still : Host.Still d.site.reactor.host { d.site.reactor.host with faults, uptake } :=
    .of_endpoints rfl rfl le_rfl rfl
  exact { expects with
    reachable := expects.reachable.outside (Site.Beside.setHost still).reactor
    carries := { expects.carries with faults := rfl, uptake := rfl } }

theorem Expects.client (expects : d₀.Expects c e n w) : c.IsClient e := by
  refine ⟨expects.kind, expects.active, ?_⟩
  rw [(expects.reachable.coherent.books.settled c expects.mem).fd _ expects.receiver]
  rfl

theorem Expects.attends (expects : d₀.Expects c e n w) (alone : d₀.site.reactor.Alone c.id) :
    d₀.site.Attends c e n w := by
  have unique := (List.nodup_append.1 expects.reachable.coherent.books.unique).1
  have holds : c.endpoint? = some e := by rw [endpoint?_of_receiver expects.receiver]
  obtain ⟨config, level, run⟩ := expects.configured
  refine ⟨⟨alone.connection? expects.mem, fun d mem apart holds' => ?_, expects.carries⟩, config, level, run.stands⟩
  exact apart (congrArg Connection.id (eq_of_filterMap_nodup unique mem expects.mem holds' holds))

theorem Expects.phase (expects : d₀.Expects c e n w) (alone : d₀.site.reactor.Alone c.id) :
    Phase c e n w d₀ requests rest [] [] d₀ := by
  have attends := expects.attends alone
  have held : c.hold ⟨some e, []⟩ = c := by
    change ({ c with receiver := some ⟨some e, []⟩, fd := some e.fd } : Connection) = c
    rw [← expects.receiver, ← expects.client.own]
  have short : Request.Incomplete [] := Or.inl (by decide)
  have serving : Site.Serving c e n w d₀.site [] [] [] w d₀.site := {
    coherent := expects.reachable.coherent
    state := rfl
    bare := rfl
    attends := held.symm ▸ attends
    origin := ⟨w, attends⟩
    framed := ⟨rfl, by rintro r ⟨⟩, Or.inl short⟩
    incomplete := short
    written := (List.append_nil _).symm
    after := ⟨List.suffix_refl _, rfl⟩
    homeOpen := expects.homeOpen
    peerOpen := expects.peerOpen }
  exact .serving (by rw [expects.inbound]; rfl) serving

theorem runOnce_eq {calls : Nat} {q : Reactor} {state : State}
    (round : d.site.reactor.round wait Handlers.ofKind d.site.state = (.ok calls, q, state)) :
    (d.runOnce wait).1 = .ok calls ∧ (d.runOnce wait).2.site = ⟨state, q⟩ := by
  unfold runOnce
  rw [round]
  exact ⟨rfl, rfl⟩

theorem take_drop_read {served buffer inbound : Bytes} (split : sent = served ++ buffer ++ inbound) :
    served ++ (buffer ++ inbound.take Host.readLimit) ++ inbound.drop Host.readLimit = sent := by
  rw [split, List.append_assoc, List.append_assoc, List.append_assoc, List.take_append_drop]

theorem Phase.heard {served : List Request} {buffer : Bytes} {v : Host.Wire}
    (serving : Site.Serving c e n w₀ d₀.site got served buffer v d.site)
    (split : sent = served.flatMap Request.encode ++ buffer ++ v.line.inbound)
    (heard : Site.Heard c e n flags w₀ d₀.site got served buffer v (d.runOnce wait).2.site)
    (delivery : Delivery n e.fd d₀ sent got d) (framed : Request.Framed (sent ++ bytes) requests rest)
    (sees : wait.SeesOnly e.fd flags d.site.reactor)
    (fine : Flags.meets flags (Flags.failed ||| Flags.notOpen) = false) :
    Phase c e n w₀ d₀ requests rest sent got (d.runOnce wait).2 := by
  have whole : served.flatMap Request.encode ++ (buffer ++ v.line.inbound.take Host.readLimit) ++
      (v.line.inbound.drop Host.readLimit ++ bytes) = sent ++ bytes := by
    rw [← List.append_assoc, take_drop_read split]
  cases heard with
  | nothing none after => exact .serving split after
  | blocked gives after => exact .serving (w := v.later) split after
  | answered gives ahead inbound later after =>
      refine .serving ?_ after
      rw [← take_drop_read split, (serving.framed_append ahead).split, inbound]
  | oversized ahead oversized removed =>
      have all := (serving.framed_append ahead).extend oversized (v.line.inbound.drop Host.readLimit ++ bytes)
      rw [whole] at all
      obtain ⟨rfl, rfl⟩ := all.unique framed
      exact .oversized (oversized.append _) removed
  | broken ahead among breaks removed =>
      have first := serving.first ahead (whole ▸ framed) among
      have ended : Delivery n e.fd d [] [] (d.runOnce wait).2 := Delivery.start.next (.round sees fine)
      have severed := Severed.intro first delivery serving.attends.attached.carries serving.after serving.state breaks
        ended ((List.append_nil got).symm ▸ removed)
      rw [List.append_nil, List.append_nil] at severed
      exact .severed severed

/-- What one round does to the conversation: it succeeds, and if something is seen, there is less to read. -/
theorem Phase.round (phase : Phase c e n w d₀ requests rest sent got d)
    (delivery : Delivery n e.fd d₀ sent got d) (client : c.IsClient e)
    (framed : Request.Framed (sent ++ bytes) requests rest)
    (alone : (d₀.site.serveEach requests).2.reactor.Alone c.id) (sees : wait.SeesOnly e.fd flags d.site.reactor)
    (fine : Flags.meets flags (Flags.failed ||| Flags.notOpen) = false) :
    (∃ calls, (d.runOnce wait).1 = .ok calls) ∧
      Phase c e n w d₀ requests rest sent got (d.runOnce wait).2 ∧
      (flags ≠ 0 → (d.runOnce wait).2.site.reactor.host.unread e = 0 ∨
        d.site.reactor.host.unread e ≠ 0 ∧ (d.runOnce wait).2.site.toRead e < d.site.toRead e) := by
  have gone {served : List Request} {written : Bytes} {p : Prop}
      (removed : Site.Removed c e n d₀.site served written got (d.runOnce wait).2.site) (_ : flags ≠ 0) :
      (d.runOnce wait).2.site.reactor.host.unread e = 0 ∨ p := Or.inl removed.unread
  cases phase with
  | @serving served buffer v split serving =>
      have whole : Request.Framed (served.flatMap Request.encode ++ (buffer ++ v.line.inbound.take Host.readLimit) ++
          (v.line.inbound.drop Host.readLimit ++ bytes)) requests rest := by
        rwa [← List.append_assoc, take_drop_read split]
      obtain ⟨calls, q, state, round, heard⟩ := serving.round client sees fine fun next last next' ahead among =>
        alone.of_prefix (Site.prefix_served (serving.first ahead whole among) d₀.site)
      obtain ⟨ok, site⟩ := runOnce_eq round
      rw [← site] at heard
      rw [serving.toRead, serving.unread]
      exact ⟨⟨calls, ok⟩, .heard serving split heard delivery framed sees fine, heard.less⟩
  | oversized oversized removed =>
      obtain ⟨q, round, after⟩ := removed.round sees
      obtain ⟨ok, site⟩ := runOnce_eq round
      rw [← site] at after
      exact ⟨⟨0, ok⟩, .oversized oversized after, gone after⟩
  | severed severed =>
      cases severed with
      | intro first begun carries later state breaks ended removed =>
      obtain ⟨q, round, after⟩ := removed.round sees
      obtain ⟨ok, site⟩ := runOnce_eq round
      rw [← site] at after
      have next := ended.next (.round sees fine)
      rw [List.append_nil, List.append_nil] at next
      exact ⟨⟨0, ok⟩, .severed (.intro first begun carries later state breaks next after), gone after⟩

theorem Severed.next (severed : Severed c e n w₀ d₀ requests sent got d)
    (step : Exchange n e.fd d bytes taken d')
    (kept : ∀ {served : List Request} {written : Bytes}, Site.Removed c e n d₀.site served written got d.site →
      Site.Removed c e n d₀.site served written (got ++ taken) d'.site) :
    Severed c e n w₀ d₀ requests (sent ++ bytes) (got ++ taken) d' := by
  cases severed with
  | intro first begun carries after state breaks ended removed =>
  have removed := kept removed
  rw [List.append_assoc _ _ taken] at removed
  have next := Severed.intro first begun carries after state breaks (ended.next step) removed
  rwa [← List.append_assoc, ← List.append_assoc] at next

theorem Phase.next (phase : Phase c e n w d₀ requests rest sent got d)
    (delivery : Delivery n e.fd d₀ sent got d) (client : c.IsClient e) {more : Bytes}
    (framed : Request.Framed (sent ++ more) requests rest)
    (alone : (d₀.site.serveEach requests).2.reactor.Alone c.id) (step : Exchange n e.fd d bytes taken d') :
    Phase c e n w d₀ requests rest (sent ++ bytes) (got ++ taken) d' := by
  cases step with
  | sends =>
      have kept {served : List Request} {written : Bytes} (removed : Site.Removed c e n d₀.site served written got d.site) :
          Site.Removed c e n d₀.site served written (got ++ []) (d.site.setHost (d.site.reactor.host.writeLine n bytes).2) := by
        rw [removed.writeLine bytes, List.append_nil]
        exact removed
      cases phase with
      | serving split serving =>
          rw [List.append_nil]
          exact .serving (by rw [split, List.append_assoc]) (serving.writeLine bytes)
      | oversized oversized removed => exact .oversized oversized (kept removed)
      | severed severed => exact .severed (severed.next (.sends bytes) kept)
  | takes =>
      cases phase with
      | serving split serving =>
          rw [List.append_nil]
          refine .serving ?_ serving.drainLine
          exact split
      | oversized oversized removed => exact .oversized oversized removed.drainLine
      | severed severed => exact .severed (severed.next .takes Site.Removed.drainLine)
  | round sees fine =>
      rw [List.append_nil, List.append_nil]
      exact (phase.round delivery client framed alone sees fine).2.1

theorem Delivery.phase (delivery : Delivery n e.fd d₀ sent got d) (expects : d₀.Expects c e n w) {more : Bytes}
    (framed : Request.Framed (sent ++ more) requests rest)
    (alone : (d₀.site.serveEach requests).2.reactor.Alone c.id) :
    Phase c e n w d₀ requests rest sent got d := by
  induction delivery generalizing more with
  | start => exact expects.phase (alone.of_prefix (Site.prefix_serveEach requests d₀.site))
  | next before step ih =>
      rw [List.append_assoc] at framed
      exact (ih framed).next before expects.client framed alone step

theorem Phase.answered (phase : Phase c e n w₀ d₀ requests rest sent got d)
    (framed : Request.Framed sent requests rest) (read : d.site.reactor.host.unread e = 0) :
    Answered c e n w₀ d₀.site requests rest got d ∨ Severed c e n w₀ d₀ requests sent got d := by
  cases phase with
  | @serving served buffer v split serving =>
      rw [serving.unread] at read
      rw [List.eq_nil_of_length_eq_zero read, List.append_nil] at split
      obtain ⟨rfl, rfl⟩ := (split ▸ serving.framed).unique framed
      have carries := serving.attends.attached.carries
      have held := Reactor.update_eq_self (f := (·.hold ⟨some e, buffer⟩)) serving.attends.attached.found rfl
      refine Or.inl ⟨serving.state,
        ⟨v.line, carries.line, iff_of_true serving.homeOpen serving.incomplete, serving.written⟩,
        fun _ => ?_, fun oversized => absurd oversized serving.incomplete.not_oversized⟩
      have bare := Reactor.hold_bare d.site.reactor n c.id ⟨some e, buffer⟩
      rw [serving.bare, Reactor.hold_bare] at bare
      exact (congrArg Reactor.connections held.symm).trans bare.symm
  | oversized oversized removed =>
      obtain ⟨v, line, gone, written⟩ := removed.line
      have ended (incomplete : Request.Incomplete _) := incomplete.not_oversized oversized
      exact Or.inl ⟨removed.state, ⟨v, line, iff_of_false (by simp [gone]) ended, written⟩,
        fun incomplete => absurd incomplete ended, fun _ => ⟨removed.connections, removed.absent⟩⟩
  | severed severed => exact Or.inr severed

theorem Delivery.read_all (delivery : Delivery n e.fd d₀ sent got d) (expects : d₀.Expects c e n w)
    (framed : Request.Framed sent requests rest) (alone : (d₀.site.serveEach requests).2.reactor.Alone c.id)
    {rounds : Nat} (enough : d.site.reactor.host.unread e = 0 ∨ d.site.toRead e ≤ rounds) :
    ((Daemon.readRound e.fd)^[rounds] d).site.reactor.host.unread e = 0 := by
  induction rounds generalizing d with
  | zero => exact enough.elim id fun none => (Nat.add_eq_zero_iff.1 (Nat.eq_zero_of_le_zero none)).1
  | succ rounds ih =>
      have whole : Request.Framed (sent ++ []) requests rest := by rwa [List.append_nil]
      have less := ((delivery.phase expects whole alone).round delivery expects.client whole alone
        (Round.wait_seesOnly e.fd Flags.input _) (by decide)).2.2 (by decide)
      rw [Function.iterate_succ_apply]
      exact ih delivery.readRound (less.imp_right fun less => Nat.le_of_lt_succ
        (less.2.trans_le (enough.resolve_left less.1)))

theorem Severed.not_roomy (severed : Severed c e n w d₀ requests sent got d) : ¬w.Roomy := by
  intro roomy
  cases severed with
  | intro first begun carries after state breaks ended removed => exact (roomy.after after).not_breaks breaks

/-- However the bytes are sent and read, once all are read, the requests that they start with have been served in turn,
each with its reply, and what is behind them is in the buffer or, if it announces too long a payload, has ended the
connection. Only a read that fails or a reply that is not taken ends it before, after the requests that were served by
then. No round fails. -/
theorem Expects.delivered (expects : d₀.Expects c e n w) (bytes : Bytes) :
    ∃ requests rest, Request.Framed bytes requests rest ∧
      ((d₀.site.serveEach requests).2.reactor.Alone c.id → ∀ got d, Delivery n e.fd d₀ bytes got d →
        (d.site.reactor.host.unread e = 0 → Answered c e n w d₀.site requests rest got d ∨
          Severed c e n w d₀ requests bytes got d) ∧
        ((readRound e.fd)^[d.site.toRead e] d).site.reactor.host.unread e = 0 ∧
        ∀ wait flags, wait.SeesOnly e.fd flags d.site.reactor →
          Flags.meets flags (Flags.failed ||| Flags.notOpen) = false → ∃ calls, (d.runOnce wait).1 = .ok calls) := by
  obtain ⟨requests, rest, framed⟩ := Request.exists_framed bytes
  have whole : Request.Framed (bytes ++ []) requests rest := by rwa [List.append_nil]
  refine ⟨requests, rest, framed, fun alone got d delivery => ?_⟩
  have phase := delivery.phase expects whole alone
  refine ⟨phase.answered framed, delivery.read_all expects framed alone (Or.inr le_rfl), fun wait flags sees fine => ?_⟩
  exact (phase.round delivery expects.client whole alone sees fine).1

end Daemon

namespace Talking

open Daemon

def config : Config where
  general := { name := "talking", defaultLevel := 10 }
  filters := [{ name := "low", level := 50, controlMessages := "0xF0A" },
    { name := "high", level := 100, controlMessages := "*" }]

def settings : Settings := { appSocket := "/dlt", controlSocket := "/ctrl" }

def filter : MessageFilter := (MessageFilter.ofConfig config).toOption.get (by decide +kernel)

def started : Daemon := (Daemon.start settings filter {}).2

def called : Host := (started.site.reactor.host.connectLocal "/ctrl" "caller").toOption.get (by decide +kernel)

def calling : Daemon := { started with site := started.site.setHost called }

def joined : Daemon := calling.readRound 4

def socket : Endpoint := ⟨5, 7, .unixStream⟩

def client : Connection := ⟨5, .controlMsg, .active, Flags.input, some ⟨some socket, []⟩, some 7⟩

theorem joined_expects : joined.Expects client socket 4 (joined.site.reactor.host.wire {}) := by
  have sound : ({} : Host).Sound := ⟨by decide, by rintro e ⟨⟩⟩
  have built : MessageFilter.ofConfig config = .ok filter := Reactor.toOption_eq_some.1 (Option.some_get _).symm
  have call : Host.PeerStep started.site.reactor.host called :=
    .connectLocal (Reactor.toOption_eq_some.1 (Option.some_get _).symm)
  have start : History settings filter [] started := .start sound (by decide +kernel)
  have call : History settings filter [] calling := start.beside (Site.Beside.peer call).toElapses
  have history : History settings filter _ joined := call.runOnce (Round.wait [(4, Flags.input)])
  have same : joined.site.state.filter = filter := by decide +kernel
  exact {
    reachable := history.reachable
    configured := by
      rw [same]
      exact ⟨config, _, .start built⟩
    mem := by decide +kernel
    kind := rfl
    active := rfl
    receiver := rfl
    carries := Host.carries_wire (by decide +kernel) (by decide +kernel) (by decide +kernel) (by decide +kernel)
    inbound := rfl
    homeOpen := rfl
    peerOpen := rfl }

def daemon (uptake : EndpointKind → Nat → Nat → Nat × Nat) : Daemon := joined.furnish [] uptake

def raise : Request := ⟨0xF0A, Frame.encodeWord 60⟩

def header : Bytes := Frame.header 0xF0B 65537

def hear (d : Daemon) (bytes : Bytes) : Daemon :=
  Daemon.readRound 7 { d with site := d.site.setHost (d.site.reactor.host.writeLine 4 bytes).2 }

def take (d : Daemon) : Daemon := { d with site := d.site.setHost (d.site.reactor.host.drainLine 4).2 }

theorem hears {d₀ d : Daemon} {sent got : Bytes} (delivery : Delivery 4 7 d₀ sent got d) (bytes : Bytes) :
    Delivery 4 7 d₀ (sent ++ bytes) got (hear d bytes) := (delivery.piece bytes).readRound

def roomy : EndpointKind → Nat → Nat → Nat × Nat := fun _ charge k => (k, charge)

def heard : Daemon := hear (hear (daemon roomy) (raise.encode.take 5)) (raise.encode.drop 5 ++ header)

theorem heard_answered : heard.site.state.filter.level = 60 ∧ heard.site.reactor.connection? 5 = none := by
  have framed : Request.Framed (raise.encode ++ header) [raise] header :=
    ⟨rfl, by decide, Or.inr ⟨0xF0B, 65537, [], rfl, by decide⟩⟩
  have delivery : Delivery 4 7 (daemon roomy) (raise.encode ++ header) [] heard :=
    hears (hears .start (raise.encode.take 5)) (raise.encode.drop 5 ++ header)
  obtain ⟨requests, rest, framed', answers⟩ := (joined_expects.furnish [] roomy).delivered (raise.encode ++ header)
  obtain ⟨rfl, rfl⟩ := framed'.unique framed
  have outcome := (answers (by decide +kernel) [] heard delivery).1 (by decide +kernel)
  have answered := outcome.resolve_right fun severed => severed.not_roomy ⟨rfl, fun _ _ k => le_refl k⟩
  refine ⟨?_, (answered.dropped (framed.ends.resolve_left ?_)).2⟩
  · rw [answered.state]
    decide +kernel
  · exact fun incomplete => incomplete.not_oversized ⟨0xF0B, 65537, [], rfl, by decide⟩

def narrow : EndpointKind → Nat → Nat → Nat × Nat := fun _ charge k => (if charge = 0 then k else 0, charge + k)

def hurried : Daemon := hear (daemon narrow) (raise.encode ++ raise.encode)

def patient : Daemon := hear (take (hear (daemon narrow) raise.encode)) raise.encode

/-- The same two requests end the connection or not, as they are cut. -/
theorem cut_tells : (daemon narrow).Expects client socket 4 ⟨{}, [], narrow⟩ ∧
    Request.Framed (raise.encode ++ raise.encode) [raise, raise] [] ∧
    (Delivery 4 7 (daemon narrow) (raise.encode ++ raise.encode) [] hurried ∧
      hurried.site.reactor.host.unread socket = 0 ∧ hurried.site.reactor.connection? 5 = none) ∧
    (∃ got, Delivery 4 7 (daemon narrow) (raise.encode ++ raise.encode) got patient) ∧
      patient.site.reactor.host.unread socket = 0 ∧ (patient.site.reactor.connection? 5).isSome := by
  refine ⟨joined_expects.furnish [] narrow, ⟨rfl, by decide, Or.inl (Or.inl (by decide))⟩, ⟨hears .start _, by decide +kernel,
    by decide +kernel⟩, ⟨_, hears (hears .start raise.encode).take raise.encode⟩, by decide +kernel, by decide +kernel⟩

end Talking

end TraceGate
