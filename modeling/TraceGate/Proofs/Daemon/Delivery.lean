import Mathlib.Data.List.TakeWhile
import TraceGate.Proofs.Daemon.Draining

namespace TraceGate

open Connection Handlers Reactor

namespace Reactor

variable {r r' : Reactor} {e : Endpoint}

def Gone (e : Endpoint) (r : Reactor) : Prop := ¬r.host.IsOpen e ∧ e.id < r.host.next

theorem Gone.later (gone : r.Gone e) (next_le : r.host.next ≤ r'.host.next)
    (opened : ∀ e, r'.host.IsOpen e → r.host.IsOpen e ∨ r.host.next ≤ e.id) : r'.Gone e :=
  ⟨fun isOpen => (opened e isOpen).elim gone.1 (not_le.2 gone.2), gone.2.trans_le next_le⟩

theorem Gone.custody {given : Nat → Kind → Endpoint → Prop} (gone : r.Gone e) (custody : Custody given r r') : r'.Gone e :=
  gone.later custody.next_le custody.opened

end Reactor

namespace Forwarding

def Reaches (f : Forwarding) (e : Endpoint) : Prop :=
  ∃ c ∈ f.reactor.connections, c.IsActive ∧ c.kind ∈ consumers ∧ c.endpoint? = some e

def Succeeds (f : Forwarding) (e : Endpoint) : Prop := ∃ a ∈ f.log, a.target.endpoint? = some e ∧ a.result.isOk

def written (f : Forwarding) (e : Endpoint) : Bytes := pieces f.log e

/-- What a consumer takes of the calls from the first one on that it does not take as a whole. -/
inductive Cut : List Forwarding → Bytes → Prop
  | whole : Cut [] []
  | torn {f : Forwarding} {bytes : Bytes} (initial : bytes <+: f.input) (short : bytes.length < f.input.length) : Cut [f] bytes

instance (f : Forwarding) (e : Endpoint) : Decidable (f.Reaches e) :=
  inferInstanceAs (Decidable (∃ c ∈ f.reactor.connections, _))

instance (f : Forwarding) (e : Endpoint) : Decidable (f.Succeeds e) :=
  inferInstanceAs (Decidable (∃ a ∈ f.log, _))

variable {f : Forwarding} {o : Occasion State} {e : Endpoint}

theorem Stands.mem_log (stands : f.Stands o) {c : Connection} :
    (∃ a ∈ f.log, a.target = c) ↔ c ∈ f.reactor.connections ∧ c.IsActive ∧ c.kind ∈ consumers := by
  have targets := stands.done.targets
  have mem : c ∈ f.log.map (·.target) ↔ c ∈ f.reactor.targets consumers := by rw [targets]
  rw [List.mem_map] at mem
  simpa [Reactor.targets] using mem

theorem Stands.reaches_iff (stands : f.Stands o) : f.Reaches e ↔ ∃ a ∈ f.log, a.target.endpoint? = some e := by
  constructor
  · rintro ⟨c, mem, active, kind, own⟩
    obtain ⟨a, logged, rfl⟩ := stands.mem_log.2 ⟨mem, active, kind⟩
    exact ⟨a, logged, own⟩
  · rintro ⟨a, logged, own⟩
    obtain ⟨mem, active, kind⟩ := stands.mem_log.1 ⟨a, logged, rfl⟩
    exact ⟨a.target, mem, active, kind, own⟩

theorem Stands.reaches (stands : f.Stands o) (succeeds : f.Succeeds e) : f.Reaches e :=
  stands.reaches_iff.2 (succeeds.imp fun _ hit => ⟨hit.1, hit.2.1⟩)

theorem Stands.refused (stands : f.Stands o) (reaches : f.Reaches e) (fails : ¬f.Succeeds e) :
    ∃ c ∈ refused f.log, c.endpoint? = some e := by
  obtain ⟨a, logged, own⟩ := stands.reaches_iff.1 reaches
  have bad : ¬a.result.isOk := fun ok => fails ⟨a, logged, own, ok⟩
  exact ⟨a.target, List.mem_map_of_mem (List.mem_filter.2 ⟨logged, by simpa using bad⟩), own⟩

theorem pieces_of_mem {log : List Attempt} (distinct : (log.filterMap (·.target.endpoint?)).Nodup) {a : Attempt} (mem : a ∈ log)
    (own : a.target.endpoint? = some e) : pieces log e = a.taken := by
  induction log with
  | nil => cases mem
  | cons b log ih =>
      have silent {log : List Attempt} (none : ∀ a ∈ log, a.target.endpoint? ≠ some e) : pieces log e = [] :=
        List.flatMap_eq_nil_iff.2 fun a mem => if_neg (none a mem)
      rw [pieces, List.flatMap_cons, ← pieces]
      rcases List.mem_cons.1 mem with rfl | mem
      · rw [List.filterMap_cons_some (f := fun x : Attempt => x.target.endpoint?) own, List.nodup_cons] at distinct
        rw [if_pos own, silent, List.append_nil]
        exact fun b later same => distinct.1 (List.mem_filterMap.2 ⟨b, later, same⟩)
      · have other : b.target.endpoint? ≠ some e := fun same => by
          rw [List.filterMap_cons_some (f := fun x : Attempt => x.target.endpoint?) same, List.nodup_cons] at distinct
          exact distinct.1 (List.mem_filterMap.2 ⟨a, mem, own⟩)
        rw [if_neg other, List.nil_append]
        exact ih (distinct.sublist ((List.sublist_cons_self _ _).filterMap _)) mem

theorem Stands.written (stands : f.Stands o) (e : Endpoint) : f.Succeeds e ∧ f.written e = f.input ∨
    f.Reaches e ∧ ¬f.Succeeds e ∧ Cut [f] (f.written e) ∨ ¬f.Reaches e ∧ f.written e = [] := by
  by_cases reaches : f.Reaches e
  · obtain ⟨a, logged, own⟩ := stands.reaches_iff.1 reaches
    have same : f.written e = a.taken := pieces_of_mem stands.sends.distinct logged own
    rw [same]
    rcases stands.done.took a logged with ⟨ok, whole⟩ | ⟨⟨error, failed⟩, initial, short⟩
    · exact Or.inl ⟨⟨a, logged, own, by rw [ok]; rfl⟩, whole⟩
    · refine Or.inr (Or.inl ⟨reaches, ?_, .torn initial short⟩)
      rintro ⟨b, logged', own', ok⟩
      have one := eq_of_filterMap stands.sends.distinct logged logged' own own'
      rw [← one, failed] at ok
      cases ok
  · refine Or.inr (Or.inr ⟨reaches, List.flatMap_eq_nil_iff.2 fun a mem => if_neg fun own => ?_⟩)
    exact reaches (stands.reaches_iff.2 ⟨a, mem, own⟩)

theorem Stands.isOpen (stands : f.Stands o) (reaches : f.Reaches e) : f.reactor.host.IsOpen e := by
  obtain ⟨c, mem, active, -, own⟩ := reaches
  obtain ⟨receiver, e', held, some, isOpen, -⟩ := stands.coherent.backed c mem active
  rw [endpoint?_of_receiver held, some] at own
  cases own
  exact isOpen

theorem Stands.gone (stands : f.Stands o) (reaches : f.Reaches e) (fails : ¬f.Succeeds e) :
    (o.outcome ofKind).2.1.Gone e := by
  obtain ⟨c, mem, own⟩ := stands.refused reaches fails
  have old := stands.coherent.sound.numbers e (stands.isOpen reaches)
  rw [stands.reactor] at old
  exact ⟨fun isOpen => ((stands.done.isOpen e).1 isOpen).2 c mem own,
    old.trans_le (Site.attend_later o.sighting o.reactor o.state).next_le⟩

end Forwarding

theorem Site.applyLevel_stats (level : Nat) (s : Site) : (s.applyLevel level).2.state.stats = s.state.stats := by
  rcases applyLevel_cases level s with ⟨_, -, same⟩ | ⟨_, _, -, ⟨_, _, state⟩, -⟩
  · rw [same]
  · rw [state]

theorem Handlers.Deed.counts {kind : Kind} {id : Nat} {s t : Scene State} (deed : Deed kind id s t) (other : kind ≠ .appMsg) :
    t.state.stats.appBytes = s.state.stats.appBytes ∧ t.state.stats.forwarded = s.state.stats.forwarded := by
  cases deed with
  | note stats notices exit forwarding => exact forwarding other
  | level n leads =>
      have same := Site.applyLevel_stats n ⟨s.state, s.reactor⟩
      exact ⟨congrArg Stats.appBytes same, congrArg Stats.forwarded same⟩
  | _ => exact ⟨rfl, rfl⟩

theorem Reactor.Coherent.counts {o : Occasion State} (coherent : o.reactor.Coherent none) (none : o.forwarding? = none) :
    (o.outcome ofKind).2.2.stats.appBytes = o.state.stats.appBytes ∧
      (o.outcome ofKind).2.2.stats.forwarded = o.state.stats.forwarded := by
  cases coherent.course with
  | vain target silent outcome =>
      rw [outcome]
      exact ⟨rfl, rfl⟩
  | removal c target failure silent outcome =>
      rw [outcome]
      exact ⟨rfl, rfl⟩
  | call c receiver target fine held called outcome =>
      rw [outcome, runHandler_snd]
      by_cases application : c.kind = .appMsg
      · have unread : reading (o.reactor.opening c.id receiver o.state) ≠ .filled := fun read => by
          unfold Occasion.forwarding? at none
          rw [called, Option.bind_some] at none
          simp [application, read] at none
        rw [application]
        have same := (forward_unread c.id unread).2
        exact ⟨congrArg (·.stats.appBytes) same, congrArg (·.stats.forwarded) same⟩
      · have deeds := performs_ofKind c.kind c.id (o.reactor.opening c.id receiver o.state)
        dsimp only
        generalize ((ofKind c.kind c.id).run.run (o.reactor.opening c.id receiver o.state)).2 = final at deeds ⊢
        induction deeds with
        | refl => exact ⟨rfl, rfl⟩
        | tail _ deed ih =>
            obtain ⟨appBytes, forwarded⟩ := deed.counts application
            exact ⟨appBytes.trans ih.1, forwarded.trans ih.2⟩

/-- What a consumer has taken: the inputs of the calls that reach it, up to the first one that it does not take. -/
def Received (calls : List Forwarding) (e : Endpoint) : Prop := ∃ rest,
  calls.flatMap (·.written e) = ((calls.filter (·.Reaches e)).takeWhile (·.Succeeds e)).flatMap Forwarding.input ++ rest ∧
    Forwarding.Cut ((calls.filter (·.Reaches e)).dropWhile (·.Succeeds e)) rest

/-- What is known of the calls so far and of the site that they have led to. -/
structure Ledger (calls : List Forwarding) (s : Site) : Prop where
  appBytes : s.state.stats.appBytes = (calls.map fun f => f.input.length).sum
  forwarded : s.state.stats.forwarded = (calls.map Forwarding.delivered).sum
  gone : ∀ f ∈ calls, ∀ e, f.Reaches e → ¬f.Succeeds e → s.reactor.Gone e
  received : ∀ e, Received calls e

namespace Ledger

variable {calls : List Forwarding} {s t : Site} {o : Occasion State}

theorem nil (none : s.state.stats = {}) : Ledger [] s :=
  ⟨by rw [none]; rfl, by rw [none]; rfl, List.forall_mem_nil _, fun _ => ⟨[], rfl, .whole⟩⟩

theorem keep (ledger : Ledger calls s) (appBytes : t.state.stats.appBytes = s.state.stats.appBytes)
    (forwarded : t.state.stats.forwarded = s.state.stats.forwarded) (gone : ∀ e, s.reactor.Gone e → t.reactor.Gone e) : Ledger calls t :=
  ⟨appBytes.trans ledger.appBytes, forwarded.trans ledger.forwarded,
    fun f mem e reaches fails => gone e (ledger.gone f mem e reaches fails), ledger.received⟩

theorem faithful (ledger : Ledger calls s) {e : Endpoint} (isOpen : s.reactor.host.IsOpen e) :
    ∀ g ∈ calls.filter (·.Reaches e), decide (g.Succeeds e) = true := by
  intro g mem
  obtain ⟨earlier, reached⟩ := List.mem_filter.1 mem
  by_contra fails
  exact (ledger.gone g earlier e (of_decide_eq_true reached) (by simpa using fails)).1 isOpen

theorem receives (ledger : Ledger calls ⟨o.state, o.reactor⟩) {f : Forwarding} (stands : f.Stands o) (e : Endpoint) :
    Received (calls ++ [f]) e := by
  obtain ⟨rest, written, cut⟩ := ledger.received e
  have total : (calls ++ [f]).flatMap (·.written e) = calls.flatMap (·.written e) ++ f.written e := by simp
  by_cases reaches : f.Reaches e
  · -- The endpoint is open, so it has taken whatever came before as a whole.
    have isOpen := stands.isOpen reaches
    rw [stands.reactor] at isOpen
    have good := ledger.faithful isOpen
    have reached : (calls ++ [f]).filter (·.Reaches e) = calls.filter (·.Reaches e) ++ [f] := by simp [reaches]
    rw [List.takeWhile_eq_self_iff.2 good] at written
    rw [List.dropWhile_eq_nil_iff.2 good] at cut
    cases cut
    unfold Received
    rw [total, written, reached, List.takeWhile_append_of_pos good, List.dropWhile_append_of_pos good, List.append_nil]
    rcases stands.written e with ⟨succeeds, whole⟩ | ⟨-, fails, torn⟩ | ⟨missed, -⟩
    · exact ⟨[], by simp [succeeds, whole], by simpa [succeeds] using Forwarding.Cut.whole⟩
    · exact ⟨f.written e, by simp [fails], by simpa [fails] using torn⟩
    · exact absurd reaches missed
  · have none : f.written e = [] := by
      rcases stands.written e with ⟨succeeds, -⟩ | ⟨hit, -⟩ | ⟨-, none⟩
      · exact absurd (stands.reaches succeeds) reaches
      · exact absurd hit reaches
      · exact none
    have reached : (calls ++ [f]).filter (·.Reaches e) = calls.filter (·.Reaches e) := by simp [reaches]
    exact ⟨rest, by rw [total, none, List.append_nil, reached, written], reached ▸ cut⟩

theorem turn (ledger : Ledger calls ⟨o.state, o.reactor⟩) (coherent : o.reactor.Coherent none)
    (foremost : o.reactor.Foremost) :
    Ledger (calls ++ o.forwarding?.toList) ⟨(o.outcome ofKind).2.2, (o.outcome ofKind).2.1⟩ := by
  have later := Site.attend_later o.sighting o.reactor o.state
  cases found : o.forwarding? with
  | none =>
      obtain ⟨appBytes, forwarded⟩ := coherent.counts found
      rw [Option.toList_none, List.append_nil]
      exact ledger.keep appBytes forwarded fun e gone => gone.custody later
  | some f =>
      have stands := Forwarding.stands coherent foremost found
      have counts := stands.done.state
      rw [stands.state] at counts
      refine ⟨?_, ?_, fun g mem e reaches fails => ?_, ledger.receives stands⟩
      · simpa [counts] using ledger.appBytes
      · simpa [counts] using ledger.forwarded
      · rcases List.mem_append.1 mem with earlier | now
        · exact (ledger.gone g earlier e reaches fails).custody later
        · obtain rfl := List.mem_singleton.1 now
          exact stands.gone reaches fails

theorem round {r : Reactor} {state : State} (ledger : Ledger calls ⟨state, r⟩) (reachable : r.Reachable) (wait : Wait) :
    Ledger (calls ++ (r.turns wait ofKind state).filterMap Occasion.forwarding?)
      ⟨(r.round wait ofKind state).2.2, (r.round wait ofKind state).2.1⟩ := by
  have start : Ledger calls ⟨state, r.roused wait⟩ :=
    ledger.keep rfl rfl fun e gone => by rwa [Reactor.Gone, roused_host]
  refine (turns_history (I := fun turns q state => q.Coherent none ∧ q.Foremost ∧
    Ledger (calls ++ turns.filterMap Occasion.forwarding?) ⟨state, q⟩) wait state ?_ fun turns o here => ?_).2.2.2
  · exact ⟨(roused_spec wait r).2.2 reachable.coherent, reachable.foremost.roused wait, by simpa using start⟩
  · obtain ⟨coherent, foremost, ledger⟩ := here
    refine ⟨(coherent.attend ofKind_acts o.sighting o.state).1, foremost.attend coherent ofKind_acts o.sighting o.state, ?_⟩
    rw [List.filterMap_append, ← List.append_assoc, filterMap_cons_toList, List.filterMap_nil, List.append_nil]
    exact ledger.turn coherent foremost

end Ledger

namespace Daemon

variable {settings : Settings} {filter : Filter.MessageFilter} {entries : List Entry} {d : Daemon}

def forwardings (entries : List Entry) : List Forwarding :=
  entries.reverse.flatMap fun entry => entry.turns.filterMap Occasion.forwarding?

theorem forwardings_cons (entry : Entry) (entries : List Entry) :
    forwardings (entry :: entries) = forwardings entries ++ entry.turns.filterMap Occasion.forwarding? := by
  simp [forwardings]

theorem shutdown_gone {e : Endpoint} (gone : d.site.reactor.Gone e) : d.shutdown.site.reactor.Gone e := by
  unfold shutdown
  split
  · exact gone
  · have first := Host.grows_removeSocket d.site.reactor.cleanup.host d.site.state.settings.appSocket
    have removed := first.trans (Host.grows_removeSocket _ d.site.state.settings.controlSocket)
    have cleaned : Custody (fun _ _ _ => True) d.site.reactor d.site.reactor.cleanup := Custody.cleanup _
    exact (gone.custody cleaned).later removed.next_le removed.opened

theorem History.ledger (history : History settings filter entries d) : Ledger (forwardings entries) d.site := by
  induction history with
  | @start host sound ok =>
      have law : Law fun s => s.state.stats = {} := {
        outside := fun _ _ _ none => none
        register := fun _ _ _ _ none => none
        level := fun level none => (Site.applyLevel_stats level _).trans none }
      exact .nil (start_kept law sound rfl ok).lawful
  | @runOnce entries d before wait ih =>
      rw [forwardings_cons]
      exact ih.round (History.reachable before) wait
  | @setLevel entries d before level ih =>
      have same := Site.applyLevel_stats level d.site
      rw [forwardings_cons, Entry.turns, List.filterMap_nil, List.append_nil]
      exact ih.keep (congrArg Stats.appBytes same) (congrArg Stats.forwarded same) fun e gone =>
        gone.custody (Site.applyLevel_later level d.site)
  | beside before elapses ih =>
      obtain ⟨notices, exit, state⟩ := elapses.state
      refine ih.keep ?_ ?_ fun e gone => gone.later elapses.reactor.next_le elapses.reactor.opened
      · rw [state]
      · rw [state]
  | shutdown before ih =>
      have same : _ := (shutdown_cases (History.reachable before)).elim (congrArg (·.site.state) ·.1) (·.2.1)
      exact ih.keep (congrArg (·.stats.appBytes) same) (congrArg (·.stats.forwarded) same) fun e => shutdown_gone

end Daemon

namespace Relaying

open Daemon Pipelining

def after (d : Daemon) (attempt : Except SystemError Host) : Daemon :=
  match attempt with
  | .ok host => { d with site := d.site.setHost host }
  | .error _ => d

def calls (d : Daemon) (name : String) : Daemon := after d (d.site.reactor.host.connectNetwork listener name)

def opens (d : Daemon) : Daemon := after d (d.site.reactor.host.connectLocal "/dlt" "application")

def begun : Daemon := opens (calls (calls Pipelining.started "stays") "goes")

def welcome : Wait := Round.wait [(7, Flags.input), (3, Flags.input)]

def joined : Daemon := (begun.runOnce welcome).2

def spoken (d : Daemon) (bytes : Bytes) : Daemon :=
  { d with site := d.site.setHost (d.site.reactor.host.peerWrite "application" bytes).2 }

def wait : Wait := Round.wait [(8, Flags.input)]

def heard : Daemon := ((spoken joined [1, 2]).runOnce wait).2

def clogged : Daemon :=
  { heard with site := heard.site.setHost { heard.site.reactor.host with faults := [none, none, some ⟨.wouldBlock, 1⟩] } }

def entries : List Entry := [.round (spoken clogged [3, 4]) wait, .round (spoken joined [1, 2]) wait, .round begun welcome]

theorem history_after {earlier : List Entry} {d : Daemon} {attempt : Except SystemError Host}
    (before : History settings filter earlier d)
    (step : ∀ host, attempt = .ok host → Host.PeerStep d.site.reactor.host host) :
    History settings filter earlier (after d attempt) := by
  unfold after
  split
  · exact before.beside (Site.Beside.peer (step _ rfl)).toElapses
  · exact before

section

variable {earlier : List Entry} {d : Daemon} (before : History settings filter earlier d)

include before

theorem history_calls (name : String) : History settings filter earlier (calls d name) :=
  history_after before fun _ => .connectNetwork

theorem history_opens : History settings filter earlier (opens d) := history_after before fun _ => .connectLocal

theorem history_spoken (bytes : Bytes) : History settings filter earlier (spoken d bytes) :=
  before.beside (Site.Beside.peer (.write "application" bytes)).toElapses

end

theorem history : History settings filter entries ((spoken clogged [3, 4]).runOnce wait).2 := by
  have sound : ({} : Host).Sound := ⟨by decide, by rintro e ⟨⟩⟩
  have start : History settings filter [] Pipelining.started := .start sound (by decide +kernel)
  have begun : History settings filter [] begun := history_opens (history_calls (history_calls start "stays") "goes")
  have joined : History settings filter _ joined := begun.runOnce welcome
  have heard : History settings filter _ heard := (history_spoken joined [1, 2]).runOnce wait
  have clogged : History settings filter _ clogged := heard.beside (Site.Beside.setHost (.setFaults _ _)).toElapses
  exact (history_spoken clogged [3, 4]).runOnce wait

end Relaying

end TraceGate
