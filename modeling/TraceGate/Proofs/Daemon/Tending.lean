import TraceGate.Proofs.Daemon.Reopening
import TraceGate.Proofs.Daemon.Round

namespace TraceGate

open Connection Relation

namespace Ids

theorem le_of_mem_takeMany {n i : Nat} {ids : Ids} (positive : 0 < ids.next) (last : (ids.after n).next < idBound)
    (mem : i ∈ ids.takeMany n) : ids.next ≤ i := by
  induction n generalizing ids with
  | zero => cases mem
  | succ n ih =>
      have taken := Reactor.take_eq positive ((Nat.le_of_add_right_le (next_add_le _ ids)).trans_lt last)
      rw [takeMany, taken] at mem
      rw [after, taken] at last
      rcases List.mem_cons.1 mem with rfl | later
      · exact le_rfl
      · exact (Nat.le_succ _).trans (ih (Nat.succ_pos _) last later)

end Ids

namespace Reactor

variable {r r' : Reactor} {c : Connection}

theorem Numbered.of_sublist (numbered : r.Numbered) (counter : r'.ids = r.ids) (keys : r'.keys.Sublist r.keys) :
    r'.Numbered := by
  have ids := keys.map Prod.fst
  rw [map_fst_keys, map_fst_keys] at ids
  refine ⟨counter ▸ numbered.positive, ids.nodup numbered.distinct, fun c mem => ?_⟩
  obtain ⟨b, origin, same⟩ := List.mem_map.1 (ids.subset (List.mem_map_of_mem mem))
  rw [counter, ← same]
  exact numbered.below b origin

theorem Numbered.key_of_old (numbered : r.Numbered) (enrols : Enrols r r') (last : r'.ids.next < idBound)
    (mem : c ∈ r'.connections) (old : c.id < r.ids.next) : c.key ∈ r.keys := by
  obtain ⟨n, new, counter, given, keys⟩ := enrols
  refine (List.mem_append.1 (keys.subset (List.mem_map_of_mem mem))).resolve_right fun joined => ?_
  have fresh := given.subset (List.mem_map_of_mem (f := Prod.fst) joined)
  exact absurd old (Ids.le_of_mem_takeMany numbered.positive (counter ▸ last) fresh).not_gt

end Reactor

namespace Handlers

open Reactor Site

variable {kind : Kind} {id : Nat} {s t : Scene State}

theorem Move.listed (move : Move kind id s t) (last : t.reactor.ids.next < idBound)
    (listed : (siteOf s).Listed (some (s.loan id))) : (siteOf t).Listed (some (t.loan id)) := by
  have coherent : t.Coherent id := Scene.steps_coherent (move.goes listed.coherent) listed.coherent
  have before := move.later.ids_le.trans_lt last
  cases move with
  | @use receiver host same grows houses =>
      have loan : Scene.loan id { s with receiver, reactor := { s.reactor with host } } = s.loan id := by
        rw [Scene.loan, same]
        rfl
      rw [loan]
      exact listed.grow grows houses
  | note stats notices exit =>
      obtain ⟨coherent, numbered, lender, addresses, ids, named, entered, bound⟩ := listed
      exact ⟨coherent, numbered, lender, addresses, ids, named, entered, bound⟩
  | @accept host e peer grows houses isOpen new other admits =>
      have grown := listed.grow grows houses
      have loose := listed.coherent.loose isOpen new
      have numbered := grown.numbered.register before s.state.filter.allowed peer (.ofEndpoint e) Flags.input
      exact grown.keeps (grown.coherent.passes_register grown.numbered.positive before loose (admitted?_standing admits).1 _ _)
        coherent numbered.numbered rfl rfl
  | unregister peer =>
      obtain ⟨keys, counter⟩ := listed.coherent.unregister_keys id
      have numbered := listed.numbered.of_sublist counter (keys ▸ List.eraseP_sublist)
      exact listed.keeps (listed.coherent.passes_unregister id) coherent numbered rfl rfl
  | forward bytes =>
      have keys := listed.coherent.sendTo_keys consumers bytes
      have numbered := listed.numbered.of_sublist (listed.coherent.sendTo_ids consumers bytes) (keys ▸ strike_sublist _ _)
      exact listed.keeps (listed.coherent.passes_sendTo consumers bytes) coherent numbered rfl rfl
  | level n leads => exact listed.applyLevel n last

theorem Moves.listed (moves : Moves kind id s t) (last : t.reactor.ids.next < idBound)
    (listed : (siteOf s).Listed (some (s.loan id))) : (siteOf t).Listed (some (t.loan id)) := by
  induction moves with
  | refl => exact listed
  | tail _ move ih => exact move.listed last (ih (move.later.ids_le.trans_lt last))

theorem Moves.enrols (moves : Moves kind id s t) (coherent : s.Coherent id) : Enrols s.reactor t.reactor := by
  have steps := moves.goes coherent
  clear moves
  induction steps with
  | refl => exact .refl _
  | tail before step ih => exact ih.trans (step.enrols (Scene.steps_coherent before coherent))

theorem Moves.kind_of_own (moves : Moves kind id s t) (last : t.reactor.ids.next < idBound)
    (listed : (siteOf s).Listed (some (s.loan id))) (own : ∀ c ∈ s.reactor.connections, c.id = id → c.kind = kind)
    {c : Connection} (mem : c ∈ t.reactor.connections) (number : c.id = id) : c.kind = kind := by
  have old : c.id < s.reactor.ids.next := number ▸ listed.lender (s.loan id) rfl
  have known := listed.numbered.key_of_old (moves.enrols listed.coherent) last mem old
  obtain ⟨b, origin, same⟩ := mem_keys.1 known
  rw [← own b origin ((congrArg Prod.fst same).trans number)]
  exact (congrArg Prod.snd same).symm

theorem Moves.calm (moves : Moves kind id s t) (peer : admitted? kind = none) (last : t.reactor.ids.next < idBound)
    (listed : (siteOf s).Listed (some (s.loan id))) (own : ∀ c ∈ s.reactor.connections, c.id = id → c.kind = kind) :
    (siteOf t).Calm (some (t.loan id)) := by
  rintro c mem _ ⟨⟩ number client
  exact ne_clientConnect peer ((moves.kind_of_own last listed own mem number).symm.trans client)

end Handlers

namespace Site

open Reactor

variable {r : Reactor} {state : State} {c : Connection} {receiver : Receiver} {id : Nat}

theorem Listed.opening (listed : Site.Listed none ⟨state, r⟩) (found : r.connection? c.id = some c)
    (held : c.receiver = some receiver) :
    (Handlers.siteOf (r.opening c.id receiver state)).Listed (some ((r.opening c.id receiver state).loan c.id)) := by
  have keys := update_keys Connection.lend (fun _ => rfl) r c.id
  refine listed.passes (passes_lend listed.numbered.distinct found held) (listed.coherent.opening found held state)
    (listed.numbered.of_sublist rfl (keys ▸ List.Sublist.refl _)) ?_ rfl rfl fun _ _ (none : False) => none.elim
  rintro _ ⟨⟩
  exact listed.numbered.below c (connection?_mem found)

theorem Listed.opening_own (listed : Site.Listed none ⟨state, r⟩) (found : r.connection? c.id = some c) :
    ∀ b ∈ (r.opening c.id receiver state).reactor.connections, b.id = c.id → b.kind = c.kind := by
  intro b among own
  have known : b.key ∈ r.keys := update_keys Connection.lend (fun _ => rfl) r c.id ▸ mem_keys.2 ⟨b, among, rfl⟩
  obtain ⟨b', origin, same⟩ := mem_keys.1 known
  obtain rfl := listed.numbered.eq_of_id origin (connection?_mem found) ((congrArg Prod.fst same).trans own)
  exact (congrArg Prod.snd same).symm

theorem Listed.restore {receiver : Receiver} (listed : Site.Listed (some ⟨id, receiver.endpoint⟩) ⟨state, r⟩) :
    Site.Listed none ⟨state, r.restore id receiver⟩ := by
  obtain ⟨keys, counter⟩ := restore_keys r id receiver
  exact listed.passes (Coherent.passes_restore listed.coherent) (Coherent.restore listed.coherent)
    (listed.numbered.of_sublist counter (keys ▸ List.Sublist.refl _)) (by rintro _ ⟨⟩) rfl rfl fun _ _ (none : False) => none.elim

def Tended (s : Site) : Prop := s.reactor.ids.next < idBound → s.Listed none

theorem Tended.turn {o : Occasion State} (tended : Site.Tended ⟨o.state, o.reactor⟩) :
    Site.Tended ⟨(o.outcome Handlers.ofKind).2.2, (o.outcome Handlers.ofKind).2.1⟩ := by
  intro last
  have listed := tended ((attend_later o.sighting o.reactor o.state).ids_le.trans_lt last)
  cases Coherent.course listed.coherent with
  | vain target silent outcome =>
      rw [outcome]
      exact listed
  | removal c target failure silent outcome =>
      rw [outcome]
      obtain ⟨keys, counter⟩ := listed.coherent.unregister_keys c.id
      have numbered := listed.numbered.of_sublist counter (keys ▸ List.eraseP_sublist)
      exact listed.keeps (listed.coherent.passes_unregister c.id) (listed.coherent.unregister c.id).1 numbered rfl rfl
  | call c receiver target fine held called outcome =>
      rw [outcome] at last ⊢
      have opened := listed.opening (Sighting.target?_eq_some target).2.1 held
      have moves := Handlers.does_ofKind c.kind c.id (o.reactor.opening c.id receiver o.state)
      dsimp only at last ⊢
      rw [runHandler_snd] at last ⊢
      generalize ((Handlers.ofKind c.kind c.id).run.run (o.reactor.opening c.id receiver o.state)).2 = final at last moves ⊢
      have same := (restore_keys final.reactor c.id final.receiver).2
      exact Listed.restore (moves.listed ((congrArg Ids.next same).ge.trans_lt last) opened)

theorem Tended.rouse (tended : Site.Tended ⟨state, r⟩) (wait : Wait) : Site.Tended ⟨state, r.roused wait⟩ := by
  obtain ⟨connections, counter, coherent⟩ := roused_spec wait r
  intro last
  have listed := tended (counter ▸ last)
  have numbered := listed.numbered.of_ids counter (by rw [connections])
  exact listed.keeps (.of_connections (congrArg Ids.next counter).ge connections fun _ _ _ => roused_host wait r ▸ id)
    (coherent listed.coherent) numbered rfl rfl

theorem Tended.turns (tended : Site.Tended ⟨state, r⟩) (wait : Wait) :
    (∀ o ∈ r.turns wait Handlers.ofKind state, Site.Tended ⟨o.state, o.reactor⟩) ∧
      Site.Tended ⟨(r.round wait Handlers.ofKind state).2.2, (r.round wait Handlers.ofKind state).2.1⟩ :=
  turns_induction (I := fun q state => Site.Tended ⟨state, q⟩) wait state (tended.rouse wait) fun _ => Tended.turn

end Site

namespace Daemon

open Site

variable {settings : Settings} {filter : Filter.MessageFilter} {entries : List Entry} {d : Daemon}

structure Bare (settings : Settings) (s : Site) : Prop where
  settings : s.state.settings = settings
  listeners : s.state.listeners = []
  absent : ∀ key ∈ s.reactor.keys, key.2 ≠ .clientConnect
  numbered : s.reactor.ids.next < idBound → s.reactor.Numbered

theorem Bare.opening (settings : Settings) : Opening (· ≠ .clientConnect) (Bare settings) where
  outside _ _ _ bare := ⟨bare.settings, bare.listeners, bare.absent, fun last => (bare.numbered last).of_ids rfl rfl⟩
  register := by
    intro s e loose other kind client bare
    obtain ⟨same, listeners, absent, numbered⟩ := bare
    rw [react_eq]
    refine ⟨same, listeners, fun key mem => ?_, fun last => ?_⟩
    · rcases Reactor.mem_register_keys mem with old | new
      · exact absent key old
      · exact new ▸ client
    · have before := (Reactor.Enrols.register s.reactor s.state.filter.allowed kind (.ofEndpoint e) Flags.input).next_le
      exact ((numbered (before.trans_lt last)).register (before.trans_lt last) _ _ _ _).numbered

theorem Bare.listed {s : Site} (bare : Bare settings s) (coherent : s.reactor.Coherent none)
    (last : s.reactor.ids.next < idBound) : s.Listed none := by
  obtain ⟨-, listeners, absent, numbered⟩ := bare
  have other : ∀ c ∈ s.reactor.connections, c.kind ≠ .clientConnect := fun c mem =>
    absent c.key (List.mem_map_of_mem mem)
  refine ⟨coherent, numbered last, by rintro _ ⟨⟩, ?_, ?_, ?_, fun c mem client => absurd client (other c mem), ?_⟩ <;>
    rw [listeners]
  · exact List.nodup_nil
  · exact List.nodup_nil
  · exact List.forall_mem_nil _
  · exact fun _ _ _ _ => List.forall_mem_nil _

theorem leads_level (settings : Settings) (level : Nat) :
    Start.Leads (Kept (Bare settings)) (discard (ExceptT.mk (onSite (Site.applyLevel level)))) fun _ d =>
      d.site.Tended ∧ (d.site.reactor.ids.next < idBound → .clientConnect ∈ d.site.state.filter.allowed →
        ∀ address ∈ settings.listenAddresses, ∃ c, d.site.Serves address c) := by
  intro d kept _ ok
  rw [run_discard] at ok ⊢
  obtain ⟨change, done⟩ : ∃ change, (d.site.applyLevel level).1 = .ok change := by
    cases answer : (d.site.applyLevel level).1 with
    | ok change => exact ⟨change, rfl⟩
    | error e =>
        rw [answer] at ok
        cases ok
  have listed (last : (d.site.applyLevel level).2.reactor.ids.next < idBound) : d.site.Listed none :=
    kept.lawful.listed kept.reachable.coherent ((applyLevel_later level d.site).ids_le.trans_lt last)
  refine ⟨fun last => (listed last).applyLevel level last, fun last allowed address wanted => ?_⟩
  have calm : d.site.Calm none := by rintro _ _ _ ⟨⟩
  obtain ⟨c, serves, -⟩ := (listed last).applyLevel_serves calm done last allowed (kept.lawful.settings ▸ wanted)
  exact ⟨c, serves⟩

theorem started {host : Host} (sound : host.Sound) (ok : (start settings filter host).1 = .ok ()) :
    (start settings filter host).2.site.Tended ∧ ((start settings filter host).2.site.reactor.ids.next < idBound →
      .clientConnect ∈ (start settings filter host).2.site.state.filter.allowed →
      ∀ address ∈ settings.listenAddresses, ∃ c, (start settings filter host).2.site.Serves address c) := by
  have bare : Bare settings ⟨{ settings, filter }, { host }⟩ :=
    ⟨rfl, rfl, List.forall_mem_nil _, fun _ => ⟨Nat.one_pos, List.nodup_nil, List.forall_mem_nil _⟩⟩
  exact start_leads (leads_openEndpoints (Bare.opening settings) (leads_level settings)) (.begun sound bare) ok

theorem History.tended (history : History settings filter entries d) : d.site.Tended := by
  induction history with
  | start sound ok => exact (started sound ok).1
  | runOnce before wait ih => exact (ih.turns wait).2
  | @setLevel entries d before level ih =>
      exact fun last => (ih ((applyLevel_later level d.site).ids_le.trans_lt last)).applyLevel level last
  | @beside entries d before site elapses ih =>
      obtain ⟨notices, exit, state⟩ := elapses.state
      have connections : site.reactor.connections = d.site.reactor.connections := by rw [elapses.reactor.rest]
      have counter : site.reactor.ids = d.site.reactor.ids := by rw [elapses.reactor.rest]
      intro last
      have listed := ih (counter ▸ last)
      have coherent : site.reactor.Coherent none := elapses.reactor.coherent listed.coherent rfl (List.forall_mem_nil _)
      refine listed.keeps (.of_connections (congrArg Ids.next counter).ge connections ?_) coherent
        (listed.numbered.of_ids counter (by rw [connections])) (by rw [state]) (by rw [state])
      rintro e ⟨c, mem, own | ⟨l, lent, -⟩⟩
      · exact elapses.houses c mem e own
      · cases lent
  | @shutdown entries d before ih =>
      rcases shutdown_cases (History.reachable before) with ⟨same, -⟩ | ⟨-, state, counter, empty⟩
      · rw [same]
        exact ih
      · intro last
        have listed := ih (counter ▸ last)
        refine listed.keeps ⟨(congrArg Ids.next counter).ge, ?_, ?_⟩ (shutdown_reachable (History.reachable before)).coherent ?_
          (congrArg State.listeners state) (congrArg State.settings state)
        · simp [Reactor.keys, empty]
        · simp [empty]
        · exact listed.numbered.of_sublist counter (by simp [Reactor.keys, empty])

/-- The sites that a history comes through, each with the kind whose handler is running. -/
inductive Visited (settings : Settings) (filter : Filter.MessageFilter) : Option Kind → Site → Prop
  | between {entries : List Entry} {d : Daemon} (history : History settings filter entries d) :
      Visited settings filter none d.site
  | turn {entries : List Entry} {d : Daemon} (history : History settings filter entries d) {wait : Wait}
      {o : Occasion State} (mem : o ∈ d.turns wait) : Visited settings filter none ⟨o.state, o.reactor⟩
  | call {entries : List Entry} {d : Daemon} (history : History settings filter entries d) {wait : Wait}
      {o : Occasion State} (mem : o ∈ d.turns wait) {c : Connection} {receiver : Receiver}
      (called : o.call? = some (c, receiver)) {s : Scene State}
      (moves : Handlers.Moves c.kind c.id (o.reactor.opening c.id receiver o.state) s) :
      Visited settings filter (some c.kind) (Handlers.siteOf s)

theorem Visited.listed {running : Option Kind} {s : Site} (visited : Visited settings filter running s)
    (last : s.reactor.ids.next < idBound) :
    ∃ loan, s.Listed loan ∧ (running.bind Handlers.admitted? = none → s.Calm loan) := by
  cases visited with
  | between history => exact ⟨none, history.tended last, fun _ => by rintro _ _ _ ⟨⟩⟩
  | turn history mem => exact ⟨none, (history.tended.turns _).1 _ mem last, fun _ => by rintro _ _ _ ⟨⟩⟩
  | @call entries d history wait o mem c receiver called s moves =>
      obtain ⟨target, held⟩ := Occasion.call?_eq_some called
      have found := (Reactor.Sighting.target?_eq_some target).2.1
      have listed := (history.tended.turns _).1 _ mem (moves.later.ids_le.trans_lt last)
      have opened := listed.opening found held
      exact ⟨_, moves.listed last opened, fun peer => moves.calm peer last opened (listed.opening_own found)⟩

/-- No address is listed twice, and every client listener has one entry, whatever the levels, the binds and the
listeners come to. Whenever a level is put in force that allows client listeners, each address to listen on is served
by one of them: by the one that was there for it before, and else by a new one. The handlers of listeners set no level
(`Handlers.Move.level`). The counter of connections is below the bound as long as fewer than `2 ^ 32 - 1` were
registered. -/
theorem addresses_served (settings : Settings) (filter : Filter.MessageFilter) :
    (∀ host : Host, host.Sound → (start settings filter host).1 = .ok () →
      (start settings filter host).2.site.reactor.ids.next < idBound →
      .clientConnect ∈ (start settings filter host).2.site.state.filter.allowed →
      ∀ address ∈ settings.listenAddresses, ∃ c, (start settings filter host).2.site.Serves address c) ∧
    ∀ running s, Visited settings filter running s → s.reactor.ids.next < idBound →
      (s.state.listeners.map (·.2)).Nodup ∧
      (∀ c ∈ s.reactor.connections, c.kind = .clientConnect → (s.state.listeners.map (·.1)).count c.id = 1) ∧
      ∀ level change, running.bind Handlers.admitted? = none → (s.applyLevel level).1 = .ok change →
        (s.applyLevel level).2.reactor.ids.next < idBound →
        .clientConnect ∈ (s.applyLevel level).2.state.filter.allowed →
        ∀ address ∈ s.state.settings.listenAddresses,
          ∃ c, (s.applyLevel level).2.Serves address c ∧ s.Succeeds address c := by
  refine ⟨fun host sound ok => (started sound ok).2, fun running s visited last => ?_⟩
  obtain ⟨loan, listed, calm⟩ := visited.listed last
  refine ⟨listed.addresses, fun c mem client => ?_, fun level change quiet ok later allowed address wanted => ?_⟩
  · obtain ⟨l, entry, own⟩ := listed.entered c mem client
    exact List.count_eq_one_of_mem listed.ids (List.mem_map.2 ⟨l, entry, own⟩)
  · exact listed.applyLevel_serves (calm quiet) ok later allowed wanted

end Daemon

namespace Tearing

open Daemon

def gated : Filter.MessageFilter where
  name := "gated"
  backend := none
  chain := ⟨[{ Filter.Segment.restrictive "shut" with levelMax := 40 },
    { Filter.Segment.permissive "open" with levelMin := 41 }]⟩
  registry := {}
  defaultLevel := 100
  level := 100
  current := 1
  current_lt := by decide

def settings : Settings where
  appSocket := "/dlt"
  controlSocket := "/ctrl"
  bindAddresses := [.v4 127 0 0 1, .loopback, .v4 127 0 0 1]

def started : Daemon := (Daemon.start settings gated {}).2

def lowered : Daemon := ((started.runOnce (Round.wait [(7, Flags.failed)])).2.setLevel 40).2

theorem reopened : (∃ c, started.site.Serves (.v4 127 0 0 1) c) ∧
    (∃ c, (lowered.setLevel 100).2.site.Serves (.v4 127 0 0 1) c ∧ 7 ≤ c.id) ∧
    ∃ c, (lowered.setLevel 100).2.site.Serves .loopback c ∧ c.id = 6 := by
  have sound : ({} : Host).Sound := ⟨by decide, by rintro e ⟨⟩⟩
  have ok : (Daemon.start settings gated {}).1 = .ok () := by decide +kernel
  obtain ⟨first, rest⟩ := addresses_served settings gated
  have visited : Visited settings gated none lowered.site := .between (.setLevel (.runOnce (.start sound ok) _) 40)
  obtain ⟨-, -, served⟩ := rest none lowered.site visited (by decide +kernel)
  have accepted : (lowered.site.applyLevel 100).1.toOption.isSome := by decide +kernel
  obtain ⟨change, done⟩ := Option.isSome_iff_exists.1 accepted
  have served := served 100 change rfl (Reactor.toOption_eq_some.1 done) (by decide +kernel) (by decide +kernel)
  refine ⟨first {} sound ok (by decide +kernel) (by decide +kernel) _ (by decide), ?_, ?_⟩
  · obtain ⟨c, serves, succeeds⟩ := served (.v4 127 0 0 1) (by decide +kernel)
    exact ⟨c, serves, succeeds.new (by decide +kernel)⟩
  · obtain ⟨c, serves, succeeds⟩ := served .loopback (by decide +kernel)
    have kept : ∃ b ∈ lowered.site.reactor.connections, b.id = 6 ∧
        (b.id, Net.Address.loopback) ∈ lowered.site.state.listeners := by decide +kernel
    obtain ⟨b, mem, number, entry⟩ := kept
    exact ⟨c, serves, (succeeds.kept b mem entry).trans number⟩

end Tearing

end TraceGate
