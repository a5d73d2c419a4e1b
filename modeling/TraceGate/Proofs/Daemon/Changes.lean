import TraceGate.Proofs.Daemon.Control
import TraceGate.Proofs.Daemon.Course
import TraceGate.Proofs.Daemon.Permission
import TraceGate.Proofs.Daemon.Reopening
import TraceGate.Proofs.Reactor.Each

namespace TraceGate

open Connection

def Connection.Obeys (policy : KindSet) (c : Connection) : Prop := c.IsActive → c.kind ∈ policy

theorem Connection.lasting_obeys (policy : KindSet) : Lasting policy (Obeys policy) where
  new _ _ _ _ active := by cases active
  start allowed _ _ := allowed
  pause _ active := by cases active
  shut _ _ active := by cases active
  take _ obeys active := obeys active

namespace Reactor

variable {policy : KindSet} {loan : Option Loan} {r : Reactor} {c : Connection}

theorem activate_connection? (found : r.connection? c.id = some c) :
    (r.activate c).2.connection? c.id = some c ∨ (r.activate c).2.connection? c.id = some c.start := by
  unfold Reactor.activate
  split
  · exact Or.inl found
  · split
    · exact Or.inl found
    · rename_i table _
      exact Or.inr (update_connection? (r := { r with table }) (fun _ => rfl) found)

theorem Coherent.checkActivate_obeys (coherent : r.Coherent loan) (foremost : r.Foremost) {id : Nat}
    (mem : c ∈ (r.checkActivate id policy .activate).2.connections) (own : c.id = id) : c.Obeys policy := by
  intro active
  -- Only the first connection with the number can be active, and that is the one that was looked at.
  have found := own ▸ (foremost.checkActivate id policy .activate).found mem active
  cases known : r.connection? id with
  | none =>
      unfold Reactor.checkActivate at found
      rw [known] at found
      cases known.symm.trans found
  | some d =>
      obtain rfl : d.id = id := (connection?_split known).1
      rcases coherent.checkActivate_cases known policy .activate with ⟨fine, eq⟩ | ⟨-, eq⟩ | ⟨⟨-, allowed, -⟩, eq⟩ <;>
        rw [eq] at found
      · cases known.symm.trans found
        exact (fine.1 active).1
      · cases (deactivate_connection? known).symm.trans found
        split at active <;> cases active
      · rcases activate_connection? known with same | same <;> cases same.symm.trans found <;> exact allowed

theorem Coherent.checkAll_obeys (coherent : r.Coherent loan) (foremost : r.Foremost) {ids seen : List Nat}
    (ok : (r.checkAll policy ids).1 = .ok ()) (each : r.Each fun c => c.id ∈ seen → c.Obeys policy) :
    (r.checkAll policy ids).2.Each fun c => c.id ∈ seen ++ ids → c.Obeys policy := by
  have lasting (seen : List Nat) : Lasting policy fun c => c.id ∈ seen → c.Obeys policy := {
    new := fun id kind e wanted _ => (lasting_obeys policy).new id kind e wanted
    start := fun allowed _ _ _ => allowed
    pause := fun obeys among => (lasting_obeys policy).pause (obeys among)
    shut := fun client obeys among => (lasting_obeys policy).shut client (obeys among)
    take := fun e obeys among => (lasting_obeys policy).take e (obeys among) }
  induction ids generalizing r seen with
  | nil => simpa [Reactor.checkAll] using each
  | cons id ids ih =>
      have kept := each.checkActivate (lasting seen) id .activate
      have here : (r.checkActivate id policy .activate).2.Each fun c => c.id ∈ seen ++ [id] → c.Obeys policy := by
        intro c mem among
        rcases List.mem_append.1 among with old | own
        · exact kept c mem old
        · exact coherent.checkActivate_obeys foremost mem (List.mem_singleton.1 own)
      have coherent' := coherent.checkActivate id policy .activate
      have foremost' := foremost.checkActivate id policy .activate
      unfold Reactor.checkAll at ok ⊢
      split at ok <;> rename_i eq <;> rw [eq] at here coherent' foremost'
      · have rest := ih coherent' foremost' ok here
        rwa [List.append_assoc] at rest
      · cases ok

theorem Coherent.reconcile_obeys (coherent : r.Coherent loan) (foremost : r.Foremost)
    (ok : (r.reconcile policy .all).1 = .ok ()) : (r.reconcile policy .all).2.Each (Obeys policy) := by
  have none : r.Each fun c => c.id ∈ [] → c.Obeys policy := fun c _ none => absurd none List.not_mem_nil
  have each := coherent.checkAll_obeys foremost ok none
  intro c mem
  refine each c mem ?_
  have keys : (r.reconcile policy .all).2.keys = r.keys := (checkAll_keys policy (r.idsOf .all) r).1
  have key : c.key ∈ r.keys := keys ▸ mem_keys.2 ⟨c, mem, rfl⟩
  obtain ⟨b, origin, same⟩ := mem_keys.1 key
  have own : b.id = c.id := congrArg Prod.fst same
  simpa [idsOf] using ⟨b, origin, own⟩

end Reactor

namespace Site

structure Change where
  site : Site
  level : Nat

def Change.result (c : Change) : Except DaemonError Filter.LevelChange := (c.site.applyLevel c.level).1

/-- Whether the policy is followed after a change. A change that fails after the filter has moved may leave
connections active that are not allowed any more, until the next one that goes through. -/
def Change.settles (settled : Bool) (c : Change) : Bool :=
  match c.result with
  | .ok _ => true
  | .error (.filter _) => settled
  | .error _ => false

def settled (settled : Bool) (changes : List Change) : Bool := changes.foldl Change.settles settled

theorem settled_append (before : Bool) (changes more : List Change) :
    settled before (changes ++ more) = settled (settled before changes) more := List.foldl_append

def changesOf : List Notice → Site → List Change
  | [], _ => []
  | notice :: rest, s =>
    ⟨s, levelOf s.state.filter notice⟩ :: match s.applyLevel (levelOf s.state.filter notice) with
      | (.ok _, s) => changesOf rest s
      | (.error e, s) => if e.isFatal then [] else changesOf rest s

structure Followed (loan : Option Loan) (settled : Bool) (s : Site) : Prop where
  coherent : s.reactor.Coherent loan
  foremost : s.reactor.Foremost
  obeys : settled = true → s.Obeys

variable {loan : Option Loan} {before : Bool} {s t : Site}

theorem Followed.grow (followed : s.Followed loan before) {host : Host} (grows : Host.Grows s.reactor.host host)
    {state : State} (same : state.filter = s.state.filter) : Followed loan before ⟨state, { s.reactor with host }⟩ := by
  refine ⟨followed.coherent.grow grows, followed.foremost, fun known c mem active => ?_⟩
  rw [same]
  exact followed.obeys known c mem active

theorem Followed.unregister (followed : s.Followed loan before) (id : Nat) :
    Followed loan before { s with reactor := (s.reactor.unregister id).2 } where
  coherent := (followed.coherent.unregister id).1
  foremost := followed.coherent.unregister_foremost followed.foremost id
  obeys known := Reactor.Each.unregister (lasting_obeys s.state.filter.allowed) (followed.obeys known) id

theorem Followed.sendTo (followed : s.Followed loan before) (kinds : KindSet) (bytes : Bytes) :
    Followed loan before { s with reactor := (s.reactor.sendTo kinds bytes).2 } where
  coherent := followed.coherent.sendTo kinds bytes
  foremost := (Reactor.Operation.sendTo kinds bytes : Reactor.Operation anyGift loan s.reactor _ _).foremost
    followed.coherent followed.foremost
  obeys known := Reactor.Each.sendTo (lasting_obeys s.state.filter.allowed) (followed.obeys known) kinds bytes

theorem Followed.register (followed : s.Followed loan before) {e : Endpoint} (loose : s.reactor.Loose loan e) (kind : Kind)
    (wanted : Flags) : Followed loan before
      { s with reactor := (s.reactor.register s.state.filter.allowed kind (.ofEndpoint e) wanted).2 } where
  coherent := by
    refine (followed.coherent.register ?_ _ kind wanted).1
    rintro _ ⟨⟩
    exact loose
  foremost := followed.foremost.register _ kind (.ofEndpoint e) wanted
  obeys known := Reactor.Each.register (lasting_obeys s.state.filter.allowed) (followed.obeys known) kind e wanted

theorem applyLevel_filter_error {level : Nat} {error : Filter.FilterError}
    (failed : (s.applyLevel level).1 = .error (.filter error)) : (s.applyLevel level).2 = s := by
  unfold Site.applyLevel at failed ⊢
  split at failed
  · rfl
  · split at failed <;> rename_i ensured
    · cases failed
      rcases ensureListeners_error ensured with ⟨_, _, bad⟩ | ⟨_, bad⟩ <;> cases bad
    · split at failed <;> rename_i done
      · cases failed
        obtain ⟨_, bad⟩ := react_error done
        cases bad
      · cases failed

theorem Followed.applyLevel (followed : s.Followed loan before) (level : Nat) :
    (s.applyLevel level).2.Followed loan (Change.settles before ⟨s, level⟩) := by
  obtain ⟨coherent, foremost⟩ := (applyLevel_goes level s).keeps followed.coherent followed.foremost
  refine ⟨coherent, foremost, fun known => ?_⟩
  unfold Change.settles Change.result at known
  dsimp only at known
  split at known <;> rename_i answer
  · rcases applyLevel_phases level s with ⟨e, refused⟩ | ⟨filter, t, ⟨e, -, failed⟩ | ⟨ensured, same, reconciled⟩⟩
    · rw [refused] at answer
      cases answer
    · rw [failed] at answer
      cases answer
    · have keeps := (ensureListeners_goes (s.setFilter filter)).keeps followed.coherent followed.foremost
      rw [ensured] at keeps
      rw [same]
      exact keeps.1.reconcile_obeys keeps.2 (reconciled _ answer)
  · rw [applyLevel_filter_error answer]
    exact followed.obeys known
  · cases known

theorem Followed.applyNotices (followed : s.Followed loan before) (notices : List Notice) :
    (s.applyNotices notices).2.Followed loan (settled before (changesOf notices s)) := by
  induction notices generalizing s before with
  | nil => exact followed
  | cons notice notices ih =>
      have first := followed.applyLevel (levelOf s.state.filter notice)
      unfold Site.applyNotices changesOf settled
      rw [List.foldl_cons]
      generalize s.applyLevel (levelOf s.state.filter notice) = outcome at first ⊢
      obtain ⟨error | change, t⟩ := outcome
      · dsimp only
        split
        · exact first
        · exact ih first
      · exact ih first

def granted? (s : Site) (request : Request) : Option Nat :=
  match s.state.filter.controlAllowed request.service.toNat with
  | .ok true => requested? request
  | _ => none

theorem respond_after (request : Request) (s : Site) : (s.respond request).2 = match s.granted? request with
    | some level => (s.applyLevel level).2
    | none => s := by
  unfold Site.respond granted?
  split
  · rename_i injection
    have unasked : requested? request = none := if_neg fun asks => not_isInjection asks injection
    rw [unasked]
    split <;> rename_i granted
    · split at granted <;> cases granted
    · rfl
  · rcases s.state.filter.controlAllowed request.service.toNat with error | _ | _
    · rfl
    · rfl
    · unfold serveControl requested?
      dsimp only
      split
      · cases requestedLevel? request.payload with
        | none => rfl
        | some level =>
            dsimp only
            split <;> rename_i applied <;> rw [applied]
      · split <;> rfl

end Site

def Serving.change? (v : Serving) : Option Site.Change := (v.site.granted? v.request).map fun level => ⟨v.site, level⟩

namespace Handlers

open Site

variable {kind : Kind} {id : Nat} {s t : Scene State} {call : Call} {before : Bool}

abbrev Follows (id : Nat) (known : Bool) (s : Scene State) : Prop := (siteOf s).Followed (some (s.loan id)) known

theorem Follows.of_endpoint (follows : Follows id before s) {receiver : Receiver}
    (same : receiver.endpoint = s.receiver.endpoint) : Follows id before { s with receiver } := by
  unfold Follows Scene.loan at follows ⊢
  rwa [same]

theorem Follows.deed (follows : Follows id before s) (deed : Deed kind id s t) (other : kind ∉ levelers) :
    Follows id before t := by
  cases deed.move with
  | @use receiver host same grows houses =>
      have grown : Follows id before { s with reactor := { s.reactor with host } } := follows.grow grows rfl
      exact grown.of_endpoint same
  | note stats notices exit => exact follows.grow (.refl _) rfl
  | @accept host e peer grows houses isOpen new apart admits =>
      have grown : Site.Followed (some (s.loan id)) before ⟨s.state, { s.reactor with host }⟩ := follows.grow grows rfl
      exact grown.register (follows.coherent.loose isOpen new) peer Flags.input
  | unregister peer => exact follows.unregister id
  | forward bytes => exact follows.sendTo consumers bytes
  | level n leads => exact absurd leads other

theorem Follows.deeds (follows : Follows id before s) (deeds : Deeds kind id s t) (other : kind ∉ levelers) :
    Follows id before t := by
  induction deeds with
  | refl => exact follows
  | tail _ deed ih => exact ih.deed deed other

theorem Follows.serve (follows : Follows id before s) {v : Serving} (site : v.site = siteOf s) :
    v.after.Followed (some (s.loan id)) (settled before v.change?.toList) := by
  have followed : v.site.Followed (some (s.loan id)) before := site ▸ follows
  have answered : (v.site.respond v.request).2.Followed (some (s.loan id)) (settled before v.change?.toList) := by
    rw [respond_after, Serving.change?]
    cases v.site.granted? v.request with
    | none => exact followed
    | some level => exact followed.applyLevel level
  rw [Serving.after, serve_eq]
  exact answered.grow (.refl _) rfl

theorem Follows.leave (follows : Follows id before s) {v : Serving} (site : v.site = siteOf s) (length : Nat) (bytes : Bytes) :
    Follows id (settled before v.change?.toList) (v.leave (s.receiver.consume length)
      ((s.receiver.consume length).send bytes v.after.reactor.host).2) :=
  (follows.serve site).grow (Host.Still.sendFrom (s.receiver.consume length) bytes v.after.reactor.host).grows rfl

theorem Serves.follows (serves : Serves s call) (follows : Follows id before s) :
    Follows id (settled before (call.served.filterMap Serving.change?)) call.scene := by
  induction serves generalizing before with
  | waiting incomplete => exact follows
  | unfit oversized => exact follows
  | @unanswered s v more error host site frame failed =>
      have left := follows.leave site v.request.encode.length v.answer.encode
      rw [failed] at left
      rwa [filterMap_cons_toList, List.filterMap_nil, List.append_nil]
  | @answered s v more host rest site frame sent later ih =>
      have left := follows.leave site v.request.encode.length v.answer.encode
      rw [sent] at left
      rw [filterMap_cons_toList, settled_append]
      exact ih left

theorem ofKind_requester (requests : kind ∈ requesters) : ofKind kind = stream := by
  cases kind <;> first | rfl | exact absurd requests (by decide)

theorem levelers_cases (leads : kind ∈ levelers) : kind ∈ requesters ∨ kind = .filterBackend := by
  cases kind <;> first | exact absurd leads (by decide) | exact Or.inl (by decide) | exact Or.inr rfl

def changesIn (kind : Kind) (id : Nat) (s : Scene State) : List Change :=
  if kind ∈ requesters then (streamCall s).served.filterMap Serving.change?
  else if kind = .filterBackend then
    match drained id s with
    | (.error _, _) => []
    | (.ok (), t) =>
      let (notices, site) := (siteOf t).takeNotices
      changesOf notices site
  else []

theorem Follows.stream (follows : Follows id before s) :
    Follows id (settled before ((streamCall s).served.filterMap Serving.change?)) ((Handlers.stream id).run.run s).2 := by
  have read : Follows id before (filled s) := by
    have still := Host.Still.fill s.receiver s.reactor.host
    have grown : Follows id before { s with reactor := { s.reactor with host := (s.receiver.fill s.reactor.host).2.2 } } :=
      follows.grow still.grows rfl
    exact grown.of_endpoint (fill_endpoint _ _)
  have called : Follows id (settled before ((streamCall s).served.filterMap Serving.change?)) (streamCall s).scene := by
    cases outcome : reading s with
    | filled => exact (streamCall_serves outcome).follows read
    | nothing =>
        rw [streamCall, outcome]
        exact read
    | lost =>
        rw [streamCall, outcome]
        exact read
  rw [stream_run, Call.run]
  split
  · exact called.deeds (performs_dropPeer rfl _ : Deeds .gateway id _ _) (by decide)
  · exact called

theorem Follows.backend (follows : Follows id before s) :
    Follows id (settled before (changesIn .filterBackend id s)) ((Handlers.backend id).run.run s).2 := by
  have read : Follows id before (drained id s).2 :=
    follows.deeds (performs_drainWake rfl _ s : Deeds .gateway id s (drained id s).2) (by decide)
  have idle : Kind.filterBackend ∉ requesters := by decide
  rw [backend_run, changesIn, if_neg idle, if_pos rfl]
  rcases outcome : drained id s with ⟨error | _, t⟩ <;> rw [outcome] at read
  · exact read
  · have taken : (siteOf t).takeNotices.2.Followed (some (t.loan id)) before := by
      obtain ⟨notices, same⟩ := drain_notices ((t.state.notices.getD []).length) (siteOf t)
      rw [Site.takeNotices, same]
      exact read.grow (.refl _) rfl
    exact taken.applyNotices _

theorem Follows.ofKind (follows : Follows id before s) (kind : Kind) :
    Follows id (settled before (changesIn kind id s)) ((Handlers.ofKind kind id).run.run s).2 := by
  by_cases leads : kind ∈ levelers
  · rcases levelers_cases leads with requests | rfl
    · rw [ofKind_requester requests, changesIn, if_pos requests]
      exact follows.stream
    · exact follows.backend
  · have none : changesIn kind id s = [] := by
      rw [changesIn, if_neg, if_neg]
      · rintro rfl
        exact leads (by decide)
      · exact fun requests => leads (by revert requests; cases kind <;> decide)
    rw [none]
    exact follows.deeds (performs_ofKind kind id s) leads

end Handlers

open Handlers Site Reactor

def Occasion.changes (o : Occasion State) : List Change :=
  match o.call? with
  | none => []
  | some (c, receiver) => changesIn c.kind c.id (o.reactor.opening c.id receiver o.state)

namespace Site

variable {before : Bool} {r : Reactor} {state : State} {o : Occasion State}

theorem Followed.opening (followed : Followed none before ⟨state, r⟩) {c : Connection} {receiver : Receiver}
    (found : r.connection? c.id = some c) (held : c.receiver = some receiver) :
    Follows c.id before (r.opening c.id receiver state) where
  coherent := followed.coherent.opening found held state
  foremost := followed.foremost.update Connection.lend (fun _ => rfl) c.id
  obeys known := Reactor.Each.update (followed.obeys known) fun _ _ obeys => obeys

theorem Followed.restore {s : Scene State} {id : Nat} (follows : Follows id before s) :
    Followed none before ⟨s.state, s.reactor.restore id s.receiver⟩ where
  coherent := Coherent.restore follows.coherent
  foremost := follows.foremost.restore id s.receiver
  obeys known := Reactor.Each.restore (lasting_obeys s.state.filter.allowed) (follows.obeys known) fun _ _ obeys => obeys

theorem Followed.turn (followed : Followed none before ⟨o.state, o.reactor⟩) :
    Followed none (settled before o.changes) ⟨(o.outcome ofKind).2.2, (o.outcome ofKind).2.1⟩ := by
  unfold Occasion.changes
  cases followed.coherent.course with
  | vain target silent outcome =>
      rw [outcome, silent]
      exact followed
  | removal c target failure silent outcome =>
      rw [outcome, silent]
      exact followed.unregister c.id
  | call c receiver target fine held called outcome =>
      rw [outcome, called, runHandler_snd]
      have opened := followed.opening (Sighting.target?_eq_some target).2.1 held
      exact .restore (Follows.ofKind opened c.kind)

theorem Followed.roused (followed : Followed none before ⟨state, r⟩) (wait : Wait) :
    Followed none before ⟨state, r.roused wait⟩ := by
  obtain ⟨connections, -, coherent⟩ := roused_spec wait r
  refine ⟨coherent followed.coherent, followed.foremost.roused wait, fun known => ?_⟩
  exact (show r.Each _ from followed.obeys known).of_subset (connections ▸ List.Subset.refl _)

end Site

namespace Daemon

variable {settings : Settings} {filter : Filter.MessageFilter} {entries : List Entry} {d : Daemon} {wait : Wait}
  {o : Occasion State} {before after : List (Occasion State)}

def Entry.changes : Entry → List Change
  | round d wait => (d.turns wait).flatMap Occasion.changes
  | level d n => [⟨d.site, n⟩]

/-- The changes of the level so far, the first first. -/
def changes (entries : List Entry) : List Change := entries.reverse.flatMap Entry.changes

theorem changes_cons (entry : Entry) (entries : List Entry) : changes (entry :: entries) = changes entries ++ entry.changes := by
  simp [changes]

theorem followed_turns {past : List Change} (followed : d.site.Followed none (settled true past)) (wait : Wait) :
    (∀ before o after, d.turns wait = before ++ o :: after →
      Followed none (settled true (past ++ before.flatMap Occasion.changes)) ⟨o.state, o.reactor⟩) ∧
      (d.runOnce wait).2.site.Followed none (settled true (past ++ (d.turns wait).flatMap Occasion.changes)) := by
  refine turns_history (I := fun turns r state => Followed none (settled true (past ++ turns.flatMap Occasion.changes)) ⟨state, r⟩)
    wait d.site.state (by simpa using followed.roused wait) fun turns o here => ?_
  have next := here.turn
  rwa [← settled_append, List.append_assoc, ← List.flatMap_singleton Occasion.changes o, ← List.flatMap_append] at next

theorem start_followed {host : Host} (sound : host.Sound) (ok : (Daemon.start settings filter host).1 = .ok ()) :
    (Daemon.start settings filter host).2.site.Followed none true := by
  have level (n : Nat) : Start.Leads (Kept fun _ => True) (discard (ExceptT.mk (onSite (Site.applyLevel n))))
      fun _ d => d.site.Followed none true := by
    intro d kept a done
    rw [run_discard] at done ⊢
    have followed : d.site.Followed none false := ⟨kept.reachable.coherent, kept.reachable.foremost, by rintro ⟨⟩⟩
    have after := followed.applyLevel n
    unfold Change.settles Change.result at after
    dsimp only at done after ⊢
    cases applied : (d.site.applyLevel n).1 with
    | ok => rwa [applied] at after
    | error error =>
        rw [applied] at done
        cases done
  exact start_leads (leads_openEndpoints Law.none.toOpening level) (.begun sound trivial) ok

theorem History.followed (history : History settings filter entries d) : d.site.Followed none (settled true (changes entries)) := by
  induction history with
  | start sound ok => exact start_followed sound ok
  | runOnce before wait ih =>
      rw [changes_cons]
      exact (followed_turns ih wait).2
  | setLevel before level ih =>
      rw [changes_cons, settled_append]
      exact ih.applyLevel level
  | beside before elapses ih =>
      obtain ⟨notices, exit, state⟩ := elapses.state
      have after := History.reachable (before.beside elapses)
      refine ⟨after.coherent, after.foremost, fun known c mem active => ?_⟩
      rw [state]
      rw [elapses.reactor.rest] at mem
      exact ih.obeys known c mem active
  | shutdown before ih =>
      rcases shutdown_cases (History.reachable before) with ⟨same, -⟩ | ⟨-, -, -, none⟩
      · rwa [same]
      · have after := History.reachable before.shutdown
        refine ⟨after.coherent, after.foremost, fun _ c mem => ?_⟩
        rw [none] at mem
        cases mem

end Daemon

end TraceGate
