import TraceGate.Daemon.Lifecycle
import TraceGate.Proofs.Daemon.Acts
import TraceGate.Proofs.Host.Paths

namespace TraceGate

open Connection

def Settings.sockets (settings : Settings) : List String := [settings.appSocket, settings.controlSocket]

namespace Site

theorem linkBackend_cases (s : Site) :
    (∃ error, s.reactor.host.openPair.1 = .error error ∧
      s.linkBackend = (.error (.system error), s.setHost s.reactor.host.openPair.2)) ∨
    ∃ pair, s.reactor.host.openPair.1 = .ok pair ∧ s.linkBackend = (.ok (⟨pair.2⟩, pair.1),
      ⟨{ s.state with notices := some [] }, { s.reactor with host := s.reactor.host.openPair.2 }⟩) := by
  unfold linkBackend
  rcases s.reactor.host.openPair with ⟨error | pair, host⟩
  · exact Or.inl ⟨error, rfl, rfl⟩
  · exact Or.inr ⟨pair, rfl, rfl⟩

theorem notify_writes (notifier : Notifier) (notice : Notice) (s : Site) :
    ∃ host notices, (host = s.reactor.host ∨ host = (s.reactor.host.writeLine notifier.line [1]).2) ∧
      (s.notify notifier notice).2 = ⟨{ s.state with notices }, { s.reactor with host }⟩ := by
  unfold notify enqueue
  rcases waiting : s.state.notices with _ | queue
  · exact ⟨s.reactor.host, s.state.notices, Or.inl rfl, rfl⟩
  · unfold wake
    dsimp only
    split
    · exact ⟨_, some (queue ++ [notice]), Or.inl rfl, rfl⟩
    · split <;> rename_i written <;>
        exact ⟨_, some (queue ++ [notice]), Or.inr (congrArg Prod.snd written).symm, rfl⟩

/-- What happens beside a daemon: no connection loses its endpoint, and no listener its address. -/
structure Elapses (s s' : Site) : Prop where
  reactor : s.reactor.Elapses s'.reactor
  houses : ∀ c ∈ s.reactor.connections, ∀ e, c.endpoint? = some e → ∀ address,
    s.reactor.host.address? e = some address → s'.reactor.host.address? e = some address
  refusals_le : s.reactor.host.refusals ≤ s'.reactor.host.refusals
  state : ∃ notices exit, s'.state = { s.state with notices, exit }

/-- What happens beside a daemon while the memory lasts. -/
structure Ample (s s' : Site) : Prop extends Elapses s s' where
  room : s'.reactor.table.room = s.reactor.table.room

/-- What happens beside a daemon when nobody else opens or closes endpoints, or makes directories of its paths. -/
structure Apart (s s' : Site) : Prop extends Elapses s s' where
  isOpen : ∀ e, s'.reactor.host.IsOpen e ↔ s.reactor.host.IsOpen e
  removable : ∀ path ∈ s.state.settings.sockets, s.reactor.host.tree.Removable path →
    s'.reactor.host.tree.Removable path

structure Beside (s s' : Site) : Prop extends Ample s s', Apart s s'

variable {s : Site} {host : Host}

theorem Beside.of_still (still : Host.Still s.reactor.host host) (notices : Option (List Notice)) (exit : Bool) :
    s.Beside ⟨{ s.state with notices, exit }, { s.reactor with host }⟩ where
  reactor := ⟨rfl, still.grows.sound, still.next_le, fun e _ => still.grows.kept e, still.grows.opened⟩
  houses _ _ e _ _ listens := (still.address? e).trans listens
  refusals_le := still.refusals.ge
  state := ⟨notices, exit, rfl⟩
  room := rfl
  isOpen e := by rw [Host.IsOpen, still.endpoints, Host.IsOpen]
  removable path _ free := by
    rw [still.tree]
    exact free

theorem Beside.setHost (still : Host.Still s.reactor.host host) : s.Beside (s.setHost host) :=
  .of_still still s.state.notices s.state.exit

theorem Beside.peer (step : Host.PeerStep s.reactor.host host) : s.Beside (s.setHost host) := .setHost step.still

theorem Elapses.scarce (s : Site) (room : Option Nat) :
    s.Elapses { s with reactor := { s.reactor with table := { s.reactor.table with room } } } where
  reactor := ⟨rfl, id, Nat.le_refl _, fun _ _ isOpen => isOpen, fun _ => Or.inl⟩
  houses _ _ _ _ _ listens := listens
  refusals_le := Nat.le_refl _
  state := ⟨s.state.notices, s.state.exit, rfl⟩

theorem Beside.requestExit (s : Site) : s.Beside s.requestExit := .of_still (.refl _) s.state.notices true

theorem Beside.notify (notifier : Notifier) (notice : Notice) (s : Site) : s.Beside (s.notify notifier notice).2 := by
  obtain ⟨host, notices, rfl | rfl, same⟩ := notify_writes notifier notice s <;> rw [same]
  · exact .of_still (.refl _) notices s.state.exit
  · exact .of_still (.writeLine _ _ _) notices s.state.exit

end Site

namespace Daemon

variable {α β : Type}

theorem Start.run_bind (x : Start α) (f : α → Start β) (d : Daemon) :
    (x >>= f).run.run d = match x.run.run d with
      | (.ok a, d') => (f a).run.run d'
      | (.error e, d') => (.error e, d') := by
  change ExceptT.bindCont f (x.run.run d).1 (x.run.run d).2 = _
  rcases x.run.run d with ⟨_ | _, d'⟩ <;> rfl

def Start.Leads (P : Daemon → Prop) (x : Start α) (Q : α → Daemon → Prop) : Prop :=
  ∀ d, P d → ∀ a, (x.run.run d).1 = .ok a → Q a (x.run.run d).2

variable {P R : Daemon → Prop} {Q : α → Daemon → Prop}

theorem Start.Leads.bind {x : Start α} {f : α → Start β} {T : β → Daemon → Prop} (first : Leads P x Q)
    (rest : ∀ a, Leads (Q a) (f a) T) : Leads P (x >>= f) T := by
  intro d before b ok
  have step := first d before
  rw [run_bind] at ok ⊢
  rcases eq : x.run.run d with ⟨e | a, d'⟩ <;> rw [eq] at step ok
  · cases ok
  · exact rest a d' (step a rfl) b ok

theorem Start.Leads.pure (a : α) (holds : ∀ d, P d → Q a d) : Leads P (pure a : Start α) Q := by
  intro d before b ok
  cases ok
  exact holds d before

theorem Start.Leads.get : Leads P (get : Start Daemon) fun _ => P :=
  fun _ before _ _ => before

theorem Start.Leads.mono {x : Start α} {P' : Daemon → Prop} (leads : Leads P x Q) (weaker : ∀ d, P' d → P d) :
    Leads P' x Q :=
  fun d before => leads d (weaker d before)

theorem run_discard (f : Site → Except DaemonError α × Site) (d : Daemon) :
    (discard (ExceptT.mk (onSite f)) : Start Unit).run.run d =
      ((f d.site).1.map fun _ => (), { d with site := (f d.site).2 }) := by
  have run : onSite f d = ((f d.site).1, { d with site := (f d.site).2 }) := rfl
  simp only [discard, Functor.discard, Functor.mapConst, ExceptT.run, ExceptT.mk, Function.comp, Function.const,
    ExceptT.map, StateT.run, StateT.bind, Bind.bind]
  rw [run]
  rcases f d.site with ⟨_ | _, s⟩ <;> rfl

structure Opening (kinds : Kind → Prop) (L : Site → Prop) : Prop where
  outside : ∀ {s : Site} {host : Host}, Host.Grows s.reactor.host host → ∀ notices exit, L s →
    L ⟨{ s.state with notices, exit }, { s.reactor with host }⟩
  register : ∀ {s : Site} {e : Endpoint}, s.reactor.Loose none e → e.kind ≠ .tcpListener → ∀ kind, kinds kind →
    L s → L (s.react (Reactor.register s.state.filter.allowed kind (.ofEndpoint e) Flags.input)).2

structure Law (L : Site → Prop) : Prop extends Opening (· ≠ .clientConnect) L where
  level : ∀ {s : Site} level, L s → L (s.applyLevel level).2

theorem Law.none : Law fun _ => True where
  outside _ _ _ _ := trivial
  register _ _ _ _ _ := trivial
  level _ _ := trivial

/-- What holds of a daemon between its operations. -/
structure Kept (L : Site → Prop) (d : Daemon) : Prop where
  reachable : d.site.reactor.Reachable
  lawful : L d.site
  running : d.isShutDown = false

structure Fresh (L : Site → Prop) (e : Endpoint) (d : Daemon) : Prop where
  kept : d.Kept L
  loose : d.site.reactor.Loose none e
  other : e.kind ≠ .tcpListener

def openRest (state : State) : Start Unit := do
  register .oneSecondTimer (← openTimer 1)
  register .sixtySecondTimer (← openTimer 60)
  match state.settings.watchdogInterval with
  | none => pure ()
  | some seconds => register .watchdogTimer (← openTimer seconds)
  openSerial
  openBackend
  discard (ExceptT.mk (onSite (Site.applyLevel state.filter.defaultLevel)))

theorem openEndpoints_eq : openEndpoints = (do
    let state := (← get).site.state
    register .appConnect (← openListener state.settings.appSocket)
    register .controlConnect (← openListener state.settings.controlSocket)
    openRest state) := rfl

section

variable {kinds : Kind → Prop} {L : Site → Prop} {kind : Kind} (opening : Opening kinds L)

include opening

theorem Kept.outside {d : Daemon} (kept : d.Kept L) {host : Host} (grows : Host.Grows d.site.reactor.host host)
    (notices : Option (List Notice)) (exit : Bool) :
    Kept L { d with site := ⟨{ d.site.state with notices, exit }, { d.site.reactor with host }⟩ } :=
  ⟨kept.reachable.goes (.step (.grow grows)), opening.outside grows notices exit kept.lawful, kept.running⟩

theorem Kept.opened {d : Daemon} (kept : d.Kept L) {outcome : Except SystemError Endpoint × Host}
    (opens : Host.Opens (· ≠ .tcpListener) d.site.reactor.host outcome) {e : Endpoint} (ok : outcome.1 = .ok e) :
    Fresh L e { d with site := d.site.setHost outcome.2 } := by
  obtain ⟨isOpen, new, other⟩ := opens.fresh e ok
  exact ⟨kept.outside opening opens.grows d.site.state.notices d.site.state.exit,
    kept.reachable.coherent.loose isOpen new, other⟩

theorem Fresh.register {d : Daemon} {e : Endpoint} (fresh : Fresh L e d) (meant : kinds kind) :
    Kept L { d with site := (d.site.react (Reactor.register d.site.state.filter.allowed kind (.ofEndpoint e)
      Flags.input)).2 } :=
  ⟨fresh.kept.reachable.goes (.register _ kind _ fresh.loose),
    opening.register fresh.loose fresh.other kind meant fresh.kept.lawful, fresh.kept.running⟩

theorem leads_register (meant : kinds kind) (e : Endpoint) :
    Start.Leads (Fresh L e) (register kind e) fun _ => Kept L := by
  intro d fresh _ _
  rw [register, run_discard]
  exact fresh.register opening meant

theorem leads_opening {f : Host → Except SystemError Endpoint × Host} (message : SystemError → DaemonError)
    (opens : ∀ h, Host.Opens (· ≠ .tcpListener) h (f h)) :
    Start.Leads (Kept L) (ExceptT.mk (onHost fun h => ((f h).1.mapError message, (f h).2))) (Fresh L) :=
  fun _ kept _ ok => kept.opened opening (opens _) (ok_of_mapError ok)

theorem leads_openListener (path : String) :
    Start.Leads (Kept L) (openListener path) fun e d => Fresh L e d ∧ e.kind = .unixListener := by
  intro d kept e ok
  have opens := Host.opens_relistenLocal d.site.reactor.host path
  have other : ∀ kind, kind = EndpointKind.unixListener → kind ≠ .tcpListener := by
    rintro _ rfl
    decide
  exact ⟨kept.opened opening (opens.mono other) (ok_of_mapError ok), (opens.fresh e (ok_of_mapError ok)).2.2⟩

theorem leads_openTimer (seconds : Nat) : Start.Leads (Kept L) (openTimer seconds) (Fresh L) :=
  leads_opening opening .system fun h => Host.opens_startTimer h seconds

theorem leads_openSerial (meant : kinds .clientMsgSerial) : Start.Leads (Kept L) openSerial fun _ => Kept L := by
  refine Start.Leads.get.bind fun d => ?_
  dsimp only
  split
  · exact .pure _ fun _ => id
  · rename_i path _
    have opened : Start.Leads (Kept L) (liftM (onHost fun h => h.openFile path) : Start (Except SystemError Endpoint))
        fun outcome d => d.Kept L ∧ ∀ e, outcome = .ok e → Fresh L e d := by
      intro d kept outcome ok
      have opens := Host.opens_openFile d.site.reactor.host path
      cases ok
      exact ⟨kept.outside opening opens.grows _ _, fun e ok => kept.opened opening opens ok⟩
    refine opened.bind fun outcome => ?_
    split
    · refine (leads_register opening meant _).mono fun d held => held.2 _ rfl
    · exact .pure _ fun _ held => held.1

theorem leads_openBackend (meant : kinds .filterBackend) : Start.Leads (Kept L) openBackend fun _ => Kept L := by
  refine Start.Leads.get.bind fun d => ?_
  dsimp only
  split
  · have linked : Start.Leads (Kept L) (ExceptT.mk (onSite Site.linkBackend) : Start (Notifier × Endpoint))
        fun link => Fresh L link.2 := by
      intro d kept link ok
      have opens := Host.opens_openPair d.site.reactor.host
      change d.site.linkBackend.1 = _ at ok
      change Fresh L link.2 { d with site := d.site.linkBackend.2 }
      rcases d.site.linkBackend_cases with ⟨error, -, same⟩ | ⟨pair, opened, same⟩ <;> rw [same] at ok
      · cases ok
      · cases ok
        rw [opened] at opens
        obtain ⟨-, loose, other⟩ := kept.opened opening opens rfl
        rw [same]
        exact ⟨kept.outside opening opens.grows (some []) d.site.state.exit, loose, other⟩
    refine linked.bind fun link => ?_
    exact (leads_register opening meant _).bind fun _ d kept _ _ => ⟨kept.reachable, kept.lawful, kept.running⟩
  · exact .pure _ fun _ => id

theorem leads_openRest {Q : Unit → Daemon → Prop} {state : State}
    (meant : ∀ kind, kind ≠ .clientConnect → kind ≠ .controlConnect → kinds kind)
    (level : Start.Leads (Kept L) (discard (ExceptT.mk (onSite (Site.applyLevel state.filter.defaultLevel)))) Q) :
    Start.Leads (Kept L) (openRest state) Q := by
  have timer (kind : Kind) (client : kind ≠ .clientConnect) (control : kind ≠ .controlConnect) (e : Endpoint) :=
    leads_register opening (meant kind client control) e
  unfold openRest
  refine (leads_openTimer opening _).bind fun e => (timer _ (by decide) (by decide) e).bind fun _ => ?_
  refine (leads_openTimer opening _).bind fun e => (timer _ (by decide) (by decide) e).bind fun _ => ?_
  have rest : Start.Leads (Kept L) (do
      openSerial
      openBackend
      discard (ExceptT.mk (onSite (Site.applyLevel state.filter.defaultLevel)))) Q :=
    (leads_openSerial opening (meant _ (by decide) (by decide))).bind fun _ =>
      (leads_openBackend opening (meant _ (by decide) (by decide))).bind fun _ => level
  split
  · exact rest
  · exact (leads_openTimer opening _).bind fun e => (timer _ (by decide) (by decide) e).bind fun _ => rest

end

theorem Kept.applyLevel {L : Site → Prop} (law : Law L) {d : Daemon} (kept : d.Kept L) (level : Nat) :
    Kept L { d with site := (d.site.applyLevel level).2 } :=
  ⟨kept.reachable.goes (Site.applyLevel_goes level d.site), law.level level kept.lawful, kept.running⟩

theorem start_leads {P : Daemon → Prop} {Q : Unit → Daemon → Prop} {settings : Settings} {filter : Filter.MessageFilter}
    {host : Host} (leads : Start.Leads P openEndpoints Q)
    (begun : P { site := { state := { settings, filter }, reactor := { host } } })
    (ok : (start settings filter host).1 = .ok ()) : Q () (start settings filter host).2 := by
  unfold start at ok ⊢
  dsimp only at ok ⊢
  split at ok
  · cases ok
  · split at ok <;> rename_i eq
    · have opened := leads _ begun ()
      rw [eq] at opened
      exact opened rfl
    · cases ok

theorem Kept.begun {L : Site → Prop} {settings : Settings} {filter : Filter.MessageFilter} {host : Host}
    (sound : host.Sound) (empty : L ⟨{ settings, filter }, { host }⟩) :
    Kept L { site := { state := { settings, filter }, reactor := { host } } } :=
  ⟨.new sound {} none, empty, rfl⟩

theorem leads_openEndpoints {L : Site → Prop} {Q : Unit → Daemon → Prop} (opening : Opening (· ≠ .clientConnect) L)
    (level : ∀ level, Start.Leads (Kept L) (discard (ExceptT.mk (onSite (Site.applyLevel level)))) Q) :
    Start.Leads (Kept L) openEndpoints Q := by
  rw [openEndpoints_eq]
  refine Start.Leads.get.bind fun d => ?_
  dsimp only
  have registers (kind : Kind) (client : kind ≠ .clientConnect) (e : Endpoint) :=
    (leads_register opening client e).mono fun (_ : Daemon) (held : Fresh L e _ ∧ e.kind = .unixListener) => held.1
  refine (leads_openListener opening _).bind fun e => (registers _ (by decide) e).bind fun _ => ?_
  refine (leads_openListener opening _).bind fun e => (registers _ (by decide) e).bind fun _ => ?_
  exact leads_openRest opening (fun _ client _ => client) (level _)

theorem start_kept {L : Site → Prop} (law : Law L) {settings : Settings} {filter : Filter.MessageFilter} {host : Host}
    (sound : host.Sound) (empty : L ⟨{ settings, filter }, { host }⟩) (ok : (start settings filter host).1 = .ok ()) :
    (start settings filter host).2.Kept L := by
  refine start_leads (Q := fun _ => Kept L) (leads_openEndpoints law.toOpening fun level d kept _ _ => ?_) (.begun sound empty) ok
  rw [run_discard]
  exact kept.applyLevel law level

inductive Entry where
  | round (before : Daemon) (wait : Wait)
  | level (before : Daemon) (level : Nat)

/-- The daemons that come about, and what they were made to do, the last first. -/
inductive Runs (begun : Host → Prop) (beside : Site → Site → Prop) (settings : Settings) (filter : Filter.MessageFilter) :
    List Entry → Daemon → Prop
  | start {host : Host} (ready : begun host) (ok : (Daemon.start settings filter host).1 = .ok ()) :
      Runs begun beside settings filter [] (Daemon.start settings filter host).2
  | runOnce {entries : List Entry} {d : Daemon} (before : Runs begun beside settings filter entries d) (wait : Wait) :
      Runs begun beside settings filter (.round d wait :: entries) (d.runOnce wait).2
  | setLevel {entries : List Entry} {d : Daemon} (before : Runs begun beside settings filter entries d) (level : Nat) :
      Runs begun beside settings filter (.level d level :: entries) (d.setLevel level).2
  | beside {entries : List Entry} {d : Daemon} (before : Runs begun beside settings filter entries d) {site : Site}
      (meanwhile : beside d.site site) : Runs begun beside settings filter entries { d with site }
  | shutdown {entries : List Entry} {d : Daemon} (before : Runs begun beside settings filter entries d) :
      Runs begun beside settings filter entries d.shutdown

/-- Others use the host too, and memory may run short. -/
abbrev History (settings : Settings) (filter : Filter.MessageFilter) : List Entry → Daemon → Prop :=
  Runs Host.Sound Site.Elapses settings filter

variable {settings : Settings} {filter : Filter.MessageFilter} {entries : List Entry} {d : Daemon}

theorem shutdown_reachable {d : Daemon} (reachable : d.site.reactor.Reachable) :
    d.shutdown.site.reactor.Reachable := by
  unfold shutdown
  split
  · exact reachable
  · have cleaned : d.site.reactor.cleanup.Reachable := .operation reachable .cleanup
    have first := Host.grows_removeSocket d.site.reactor.cleanup.host d.site.state.settings.appSocket
    exact cleaned.goes (.step (.grow (first.trans (Host.grows_removeSocket _ d.site.state.settings.controlSocket))))

theorem History.reachable (history : History settings filter entries d) : d.site.reactor.Reachable := by
  induction history with
  | start sound ok => exact (start_kept .none sound trivial ok).reachable
  | runOnce _ wait ih => exact ih.round wait Handlers.ofKind_acts _
  | setLevel _ level ih => exact ih.goes (Site.applyLevel_goes level _)
  | beside _ elapses ih => exact ih.outside elapses.reactor
  | shutdown _ ih => exact shutdown_reachable ih

end Daemon

end TraceGate
