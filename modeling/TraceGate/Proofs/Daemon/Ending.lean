import TraceGate.Proofs.Daemon.Containing

namespace TraceGate

open Connection

namespace Daemon

variable {α β : Type} {host : Host} {settings : Settings} {filter : Filter.MessageFilter} {d d' : Daemon}

structure Emptied (host : Host) (settings : Settings) (d : Daemon) : Prop where
  connections : d.site.reactor.connections = []
  table : d.site.reactor.table.occupied = []
  counts : ∀ kind, d.site.reactor.count kind = 0
  isOpen : ∀ e, d.site.reactor.host.IsOpen e ↔ host.IsOpen e
  sockets : ∀ path ∈ settings.sockets, d.site.reactor.host.pathExists path = false

/-- A daemon that keeps to what it opened itself. -/
abbrev Housed (host : Host) (settings : Settings) : Daemon → Prop := Kept (Site.Contained host settings none)

theorem sockets_removed {h : Host} (removable : ∀ path ∈ settings.sockets, h.tree.Removable path) :
    ∀ path ∈ settings.sockets,
      ((h.removeSocket settings.appSocket).2.removeSocket settings.controlSocket).2.pathExists path = false := by
  obtain ⟨app, control⟩ : h.tree.Removable settings.appSocket ∧ h.tree.Removable settings.controlSocket := by
    simpa [Settings.sockets] using removable
  have second := Host.removeSocket_gone (h.removeSocket settings.appSocket).2 settings.controlSocket
  intro path mem
  rcases List.mem_pair.1 mem with rfl | rfl
  · exact second.2 _ ((Host.removeSocket_gone h _).1 app)
  · exact second.1 ((Host.removeSocket_tree h _).removable control)

theorem Kept.emptied (housed : d.Housed host settings) : d.shutdown.Emptied host settings := by
  have coherent := (shutdown_reachable housed.reachable).coherent
  obtain ⟨-, ended⟩ | ⟨-, -, -, connections⟩ := shutdown_cases housed.reachable
  · rw [housed.running] at ended
    cases ended
  have contained : Site.Contained host settings none ⟨d.site.state, d.site.reactor.cleanup⟩ :=
    housed.lawful.tidy rfl (Reactor.tidy_unregisterAll _ _)
  have quiet := (Host.quiet_removeSocket d.site.reactor.cleanup.host settings.appSocket).trans
    (Host.quiet_removeSocket _ settings.controlSocket)
  have whole : d.shutdown.site.reactor = { d.site.reactor.cleanup with
      host := ((d.site.reactor.cleanup.host.removeSocket settings.appSocket).2.removeSocket settings.controlSocket).2 } := by
    rw [shutdown, if_neg (by simp [housed.running]), ← housed.lawful.configured]
  have final : Site.Contained host settings none ⟨d.site.state, d.shutdown.site.reactor⟩ := by
    rw [whole]
    exact contained.tidy rfl (.of_quiet quiet)
  refine ⟨connections, ?_, fun kind => ?_, fun e => ?_, ?_⟩
  · have same := coherent.books.tracks.same
    rw [connections] at same
    exact List.map_eq_nil_iff.1 same.eq_nil
  · rw [coherent.counted, connections]
    rfl
  · rw [← final.loose e, Reactor.Loose, connections]
    simp [Loan.endpoints]
  · rw [whole]
    exact sockets_removed contained.removable

theorem Kept.quieted (housed : d.Housed host settings) {later : Host} (grows : Host.Grows d.site.reactor.host later)
    (quiet : Host.Quiet d.site.reactor.host later) (notices : Option (List Notice)) (exit : Bool) :
    Housed host settings { d with site := ⟨{ d.site.state with notices, exit }, { d.site.reactor with host := later }⟩ } :=
  ⟨housed.reachable.goes (.step (.grow grows)), housed.lawful.tidy rfl (.of_quiet quiet), housed.running⟩

theorem Kept.taken (housed : d.Housed host settings) {kinds : EndpointKind → Prop} {e : Endpoint}
    {outcome : Except SystemError Endpoint × Host} (opens : Host.Opens kinds d.site.reactor.host outcome)
    (yields : Host.Yields d.site.reactor.host outcome) (ok : outcome.1 = .ok e) (kind : Kind)
    (notices : Option (List Notice)) :
    Housed host settings { d with site := ⟨{ d.site.state with notices }, (({ d.site.reactor with host := outcome.2 } :
      Reactor).register d.site.state.filter.allowed kind (.ofEndpoint e) Flags.input).2⟩ } := by
  have coherent := housed.reachable.coherent
  obtain ⟨isOpen, new, -⟩ := opens.fresh e ok
  have grown : ({ d.site.reactor with host := outcome.2 } : Reactor).Reachable :=
    housed.reachable.goes (.step (.grow opens.grows))
  have loose := coherent.loose isOpen new
  refine ⟨grown.goes (.register _ kind _ loose), housed.lawful.tidy rfl ?_, housed.running⟩
  exact coherent.tidy_opened opens yields ok fun loose => grown.coherent.takes_register loose _ kind _

namespace Start

def Keeps (P : Daemon → Prop) (x : Start α) : Prop := ∀ d, P d → P (x.run.run d).2

variable {P : Daemon → Prop}

theorem Keeps.bind {x : Start α} {f : α → Start β} (first : Keeps P x) (rest : ∀ a, Keeps P (f a)) : Keeps P (x >>= f) := by
  intro d before
  have step := first d before
  rw [run_bind]
  rcases eq : x.run.run d with ⟨e | a, d'⟩ <;> rw [eq] at step
  · exact step
  · exact rest a d' step

theorem Keeps.pure (a : α) : Keeps P (pure a : Start α) := fun _ => id

theorem Keeps.get : Keeps P (get : Start Daemon) := fun _ => id

end Start

open Start

theorem keeps_opening {f : Host → Except SystemError Endpoint × Host} (message : SystemError → DaemonError) (kind : Kind)
    {kinds : EndpointKind → Prop} (opens : ∀ h, Host.Opens kinds h (f h)) (yields : ∀ h, Host.Yields h (f h))
    {rest : Unit → Start Unit} (keeps : ∀ u, Keeps (Housed host settings) (rest u)) :
    Keeps (Housed host settings) ((ExceptT.mk (onHost fun h => ((f h).1.mapError message, (f h).2)) : Start Endpoint) >>=
      fun e => register kind e >>= rest) := by
  intro d housed
  have opens := opens d.site.reactor.host
  have yields := yields d.site.reactor.host
  have ran : (ExceptT.mk (onHost fun h => ((f h).1.mapError message, (f h).2)) : Start Endpoint).run.run d =
      ((f d.site.reactor.host).1.mapError message, { d with site := d.site.setHost (f d.site.reactor.host).2 }) := rfl
  rw [run_bind, ran]
  cases outcome : (f d.site.reactor.host).1 with
  | error e => exact housed.quieted opens.grows (yields.quiet outcome) _ _
  | ok e =>
      have taken := housed.taken opens yields outcome kind d.site.state.notices
      dsimp only [Except.mapError]
      rw [run_bind, register, run_discard]
      dsimp only
      split <;> rename_i eq <;> obtain ⟨-, rfl⟩ := Prod.mk.inj eq
      · exact keeps _ _ taken
      · exact taken

theorem keeps_openSerial : Keeps (Housed host settings) openSerial := by
  refine Keeps.get.bind fun before => ?_
  dsimp only
  split
  · exact .pure _
  · rename_i path _
    intro d housed
    have opens := Host.opens_openFile d.site.reactor.host path
    have yields := Host.yields_openFile d.site.reactor.host path
    have ran : (liftM (onHost fun h => h.openFile path) : Start (Except SystemError Endpoint)).run.run d =
        (.ok (d.site.reactor.host.openFile path).1,
          { d with site := d.site.setHost (d.site.reactor.host.openFile path).2 }) := rfl
    rw [run_bind, ran]
    dsimp only
    cases outcome : (d.site.reactor.host.openFile path).1 with
    | error e => exact housed.quieted opens.grows (yields.quiet outcome) _ _
    | ok e =>
        dsimp only
        rw [register, run_discard]
        exact housed.taken opens yields outcome .clientMsgSerial d.site.state.notices

theorem keeps_openBackend : Keeps (Housed host settings) openBackend := by
  refine Keeps.get.bind fun before => ?_
  dsimp only
  split
  · intro d housed
    have opens := Host.opens_openPair d.site.reactor.host
    have yields := Host.yields_openPair d.site.reactor.host
    have ran : (ExceptT.mk (onSite Site.linkBackend) : Start (Notifier × Endpoint)).run.run d =
        (d.site.linkBackend.1, { d with site := d.site.linkBackend.2 }) := rfl
    rw [run_bind, ran]
    rcases d.site.linkBackend_cases with ⟨error, failed, same⟩ | ⟨pair, opened, same⟩ <;> rw [same]
    · exact housed.quieted opens.grows (yields.quiet (by rw [failed]; rfl)) _ _
    · have taken := housed.taken opens yields (by rw [opened]; rfl) .filterBackend (some [])
      dsimp only
      rw [run_bind, register, run_discard]
      dsimp only
      split <;> rename_i eq <;> obtain ⟨-, rfl⟩ := Prod.mk.inj eq
      · exact ⟨taken.reachable, taken.lawful, taken.running⟩
      · exact taken
  · exact .pure _

theorem keeps_applyLevel (level : Nat) :
    Keeps (Housed host settings) (Functor.discard (ExceptT.mk (onSite (Site.applyLevel level)))) := by
  intro d housed
  rw [run_discard]
  exact ⟨housed.reachable.goes (Site.applyLevel_goes level d.site), housed.lawful.applyLevel housed.reachable.coherent level,
    housed.running⟩

theorem keeps_openEndpoints : Keeps (Housed host settings) openEndpoints := by
  have listener (path : String) (kind : Kind) {rest : Unit → Start Unit} (keeps : ∀ u, Keeps (Housed host settings) (rest u)) :=
    keeps_opening (.socket path) kind (fun h => Host.opens_relistenLocal h path) (fun h => Host.yields_relistenLocal h path) keeps
  have timer (seconds : Nat) (kind : Kind) {rest : Unit → Start Unit} (keeps : ∀ u, Keeps (Housed host settings) (rest u)) :=
    keeps_opening .system kind (fun h => Host.opens_startTimer h seconds) (fun h => Host.yields_startTimer h seconds) keeps
  refine Keeps.get.bind fun before => listener _ _ fun _ => listener _ _ fun _ => timer _ _ fun _ => timer _ _ fun _ => ?_
  have rest : Keeps (Housed host settings) (do
      openSerial
      openBackend
      Functor.discard (ExceptT.mk (onSite (Site.applyLevel before.site.state.filter.defaultLevel)))) :=
    keeps_openSerial.bind fun _ => keeps_openBackend.bind fun _ => keeps_applyLevel _
  split
  · exact rest
  · exact timer _ _ fun _ => rest

theorem Kept.blank (filter : Filter.MessageFilter) (sound : host.Sound)
    (removable : ∀ path ∈ settings.sockets, host.tree.Removable path) :
    Housed host settings { site := { state := { settings, filter }, reactor := { host } } } :=
  ⟨.new sound {} none, ⟨rfl, removable, fun e => by simp [Reactor.Loose, Loan.endpoints]⟩, rfl⟩

theorem start_cases (filter : Filter.MessageFilter) (sound : host.Sound)
    (removable : ∀ path ∈ settings.sockets, host.tree.Removable path) (valid : settings.validate = .ok ()) :
    ((Daemon.start settings filter host).1 = .ok () ∧ (Daemon.start settings filter host).2.Housed host settings) ∨
    (∃ error, (Daemon.start settings filter host).1 = .error error) ∧
      (Daemon.start settings filter host).2.Emptied host settings := by
  have opened := keeps_openEndpoints _ (Kept.blank filter sound removable)
  unfold Daemon.start
  rw [valid]
  dsimp only
  split <;> rename_i eq <;> rw [eq] at opened
  · exact Or.inl ⟨rfl, opened⟩
  · exact Or.inr ⟨⟨_, rfl⟩, opened.emptied⟩

theorem validate_of_start (ok : (Daemon.start settings filter host).1 = .ok ()) : settings.validate = .ok () := by
  unfold Daemon.start at ok
  dsimp only at ok
  split at ok
  · cases ok
  · assumption

variable {entries : List Entry} {moments : List Moment}

theorem Kept.beside (housed : d.Housed host settings) {s : Site} (apart : d.site.Apart s) :
    Housed host settings { d with site := s } := by
  obtain ⟨notices, exit, state⟩ := apart.state
  have contained := housed.lawful
  refine ⟨housed.reachable.outside apart.reactor, ⟨?_, fun path mem => ?_, fun e => ?_⟩, housed.running⟩
  · exact (congrArg State.settings state).trans contained.configured
  · exact apart.removable path (contained.configured ▸ mem) (contained.removable path mem)
  · have same : s.reactor.connections = d.site.reactor.connections := by rw [apart.reactor.rest]
    rw [← contained.loose e, Reactor.Loose, Reactor.Loose, apart.isOpen, same]

theorem Kept.runOnce (housed : d.Housed host settings) (wait : Wait) : (d.runOnce wait).2.Housed host settings :=
  ⟨housed.reachable.round wait Handlers.ofKind_acts _,
    Site.contained_keeping.round housed.reachable.coherent housed.lawful wait, housed.running⟩

theorem Runs.housed (runs : Runs (· = host) Site.Apart settings filter entries d) (sound : host.Sound)
    (removable : ∀ path ∈ settings.sockets, host.tree.Removable path) (running : d.isShutDown = false) :
    d.Housed host settings := by
  induction runs with
  | start same ok =>
      subst same
      rcases start_cases filter sound removable (validate_of_start ok) with ⟨-, housed⟩ | ⟨⟨error, failed⟩, -⟩
      · exact housed
      · rw [ok] at failed
        cases failed
  | runOnce _ wait ih => exact (ih running).runOnce wait
  | setLevel _ level ih =>
      have housed := ih running
      exact ⟨housed.reachable.goes (Site.applyLevel_goes level _),
        housed.lawful.applyLevel housed.reachable.coherent level, housed.running⟩
  | beside _ apart ih => exact (ih running).beside apart
  | @shutdown entries d before ih =>
      have ended : d.shutdown.isShutDown = true := by
        unfold Daemon.shutdown
        split
        · assumption
        · rfl
      rw [ended] at running
      cases running

theorem quiet_round (r : Reactor) (state : State) : (r.round (Round.wait []) Handlers.ofKind state).2.2 = state := by
  have silent : (Answer.ofFlags (r.table.occupied.map fun s => Round.flagsOf [] s.fd)).ready = 0 := by
    simp [Answer.ofFlags, Round.flagsOf]
  unfold Reactor.round Round.wait
  dsimp only
  rw [if_pos silent]

theorem Kept.ended (housed : d.Housed host settings) (exit : d.site.state.exit = true) :
    d.shutdown.site.state.exit = true ∧ d.shutdown.Emptied host settings := by
  refine ⟨?_, housed.emptied⟩
  unfold shutdown
  split <;> exact exit

theorem Kept.run (housed : d.Housed host settings)
    (apart : ∀ m ∈ moments, ∀ s : Site, s.Apart (m.before s) ∧ s.Apart (m.during s)) :
    (d.run moments).2.site.state.exit = true ∧ (d.run moments).2.Emptied host settings := by
  induction moments generalizing d with
  | nil =>
      rw [Daemon.run]
      split
      · exact housed.ended ‹_›
      · have asked : d.requestExit.Housed host settings := housed.beside (Site.Beside.requestExit d.site).toApart
        have same : (d.requestExit.runOnce (Round.wait [])).2.site.state = d.requestExit.site.state :=
          quiet_round d.requestExit.site.reactor d.requestExit.site.state
        refine (asked.runOnce (Round.wait [])).ended ?_
        rw [same]
        rfl
  | cons m rest ih =>
      obtain ⟨first, later⟩ := List.forall_mem_cons.1 apart
      have before := housed.beside (first d.site).1
      rw [Daemon.run]
      dsimp only
      split
      · exact before.ended ‹_›
      · have after := (before.beside (first _).2).runOnce m.wait
        split <;> rename_i eq <;> rw [eq] at after
        · exact (after.beside (Site.Beside.requestExit _).toApart).ended rfl
        · exact ih after later

/-- However a daemon's run ends, it was asked to end, and nothing that was opened since the start is left behind. Neither
is anything if the daemon cannot be started, at whichever step that fails. -/
theorem leaves_nothing (settings : Settings) (filter : Filter.MessageFilter) (host : Host) (sound : host.Sound)
    (removable : ∀ path ∈ settings.sockets, host.tree.Removable path) :
    (∀ entries d, Runs (· = host) Site.Apart settings filter entries d → d.isShutDown = false →
      ∀ moments : List Moment, (∀ m ∈ moments, ∀ s : Site, s.Apart (m.before s) ∧ s.Apart (m.during s)) →
        (d.run moments).2.site.state.exit = true ∧ (d.run moments).2.Emptied host settings ∧
        ∀ c ∈ d.site.reactor.connections, ∀ e, c.endpoint? = some e → ¬(d.run moments).2.site.reactor.host.IsOpen e) ∧
    (settings.validate = .ok () → ∀ error, (Daemon.start settings filter host).1 = .error error →
      (Daemon.start settings filter host).2.Emptied host settings) := by
  refine ⟨fun entries d runs running moments apart => ?_, fun valid error failed => ?_⟩
  · have housed := runs.housed sound removable running
    obtain ⟨exit, emptied⟩ := housed.run apart
    refine ⟨exit, emptied, fun c mem e own isOpen => ?_⟩
    have loose := (housed.lawful.loose e).2 ((emptied.isOpen e).1 isOpen)
    exact loose.2 (List.mem_append_left _ (List.mem_filterMap.2 ⟨c, mem, own⟩))
  · rcases start_cases filter sound removable valid with ⟨ok, -⟩ | ⟨-, emptied⟩
    · rw [ok] at failed
      cases failed
    · exact emptied

end Daemon

namespace Tearing

open Daemon

def broken : Host := { faults := [none, none, none, none, none, none, some ⟨.brokenPipe, 0⟩] }

def unready : Host := { faults := [none, some ⟨.brokenPipe, 0⟩] }

def poor : Host := { listenFaults := [none, some .addressNotAvailable] }

def moment : Daemon.Moment where
  during s := match s.reactor.host.connectLocal "/ctrl" "tool" with
    | .ok host => s.setHost host
    | .error _ => s
  wait := Round.wait [(4, Flags.input)]

theorem moment_apart (s : Site) : s.Apart (moment.before s) ∧ s.Apart (moment.during s) := by
  have idle : s.Apart s := (Site.Beside.setHost (.refl _)).toApart
  refine ⟨idle, ?_⟩
  unfold moment
  dsimp only
  split
  · rename_i host connected
    exact (Site.Beside.peer (.connectLocal connected)).toApart
  · exact idle

theorem left_clean : (((Daemon.start settings gated broken).2.run [moment]).1.1.isOk = false ∧
      ((Daemon.start settings gated broken).2.run [moment]).2.Emptied broken settings) ∧
    ∀ host ∈ [unready, poor], (Daemon.start settings gated host).1.isOk = false ∧
      (Daemon.start settings gated host).2.Emptied host settings := by
  have sound (h : Host) (empty : h.endpoints = []) : h.Sound := ⟨by simp [empty], by simp [Host.IsOpen, empty]⟩
  have removable : ∀ path ∈ settings.sockets, ({} : Host.Tree).find path ≠ .ok .directory := by decide +kernel
  have ok : (Daemon.start settings gated broken).1 = .ok () := by decide +kernel
  have running : (Daemon.start settings gated broken).2.isShutDown = false := by decide +kernel
  have ran := (leaves_nothing settings gated broken (sound _ rfl) removable).1 [] _ (.start rfl ok) running [moment]
    (List.forall_mem_singleton.2 moment_apart)
  refine ⟨⟨by decide +kernel, ran.2.1⟩, fun host mem => ?_⟩
  have fails : ∀ host ∈ [unready, poor], (Daemon.start settings gated host).1.isOk = false := by decide +kernel
  refine ⟨fails host mem, ?_⟩
  have blank : host.endpoints = [] ∧ host.tree = {} := by
    rcases List.mem_pair.1 mem with rfl | rfl <;> exact ⟨rfl, rfl⟩
  have started := (leaves_nothing settings gated host (sound _ blank.1) (blank.2 ▸ removable)).2 (by decide +kernel)
  cases outcome : (Daemon.start settings gated host).1 with
  | ok =>
      have failed := fails host mem
      simp [outcome, Except.isOk, Except.toBool] at failed
  | error error => exact started error outcome

end Tearing

end TraceGate
