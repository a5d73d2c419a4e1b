import TraceGate.Daemon.Handlers
import TraceGate.Proofs.Daemon.Footprint

namespace TraceGate

open Relation

namespace Turn

variable {σ α β : Type}

theorem run_bind (t : Turn σ α) (f : α → Turn σ β) (s : Scene σ) :
    (t >>= f).run.run s = match t.run.run s with
      | (.ok a, s') => (f a).run.run s'
      | (.error message, s') => (.error message, s') := by
  change ExceptT.bindCont f (t.run.run s).1 (t.run.run s).2 = _
  rcases t.run.run s with ⟨_ | _, s'⟩ <;> rfl

theorem run_receiver (f : Receiver → Host → α × Receiver × Host) (k : α → Turn σ β) (s : Scene σ) :
    (receiver f >>= k).run.run s = (k (f s.receiver s.reactor.host).1).run.run
      { s with receiver := (f s.receiver s.reactor.host).2.1,
               reactor := { s.reactor with host := (f s.receiver s.reactor.host).2.2 } } := rfl

def Respects (R : Scene σ → Scene σ → Prop) (t : Turn σ α) : Prop := ∀ s, R s (t.run.run s).2

variable {R : Scene σ → Scene σ → Prop} {t : Turn σ α}

theorem respects_pure (refl : ∀ s, R s s) (a : α) : Respects R (pure a : Turn σ α) := refl

theorem respects_throw (refl : ∀ s, R s s) (message : String) : Respects R (throw message : Turn σ α) := refl

theorem respects_orFail {ε : Type} (refl : ∀ s, R s s) (message : ε → String) (outcome : Except ε α) :
    Respects R (orFail message outcome : Turn σ α) := by
  cases outcome with
  | ok a => exact refl
  | error e => exact refl

theorem Respects.bind (trans : ∀ a b c, R a b → R b c → R a c) (first : Respects R t) {f : α → Turn σ β}
    (rest : ∀ a, Respects R (f a)) : Respects R (t >>= f) := by
  intro s
  have step := first s
  rw [run_bind]
  rcases eq : t.run.run s with ⟨message | a, s'⟩ <;> rw [eq] at step
  · exact step
  · exact trans _ _ _ step (rest a s')

end Turn

namespace Handlers

abbrev siteOf (s : Scene State) : Site := ⟨s.state, s.reactor⟩

def admitted? : Kind → Option Kind
  | .clientConnect => some .clientMsgTcp
  | .appConnect => some .appMsg
  | .controlConnect => some .controlMsg
  | _ => none

def requesters : KindSet := .ofList [.controlMsg, .clientMsgTcp, .clientMsgSerial]

def levelers : KindSet := .ofList [.controlMsg, .clientMsgTcp, .clientMsgSerial, .filterBackend]

/-- One thing that the handler of a connection of some kind does. -/
inductive Deed (kind : Kind) (id : Nat) (s : Scene State) : Scene State → Prop
  | fill : Deed kind id s { s with receiver := (s.receiver.fill s.reactor.host).2.1,
                                   reactor := { s.reactor with host := (s.receiver.fill s.reactor.host).2.2 } }
  | consume (n : Nat) : Deed kind id s { s with receiver := s.receiver.consume n }
  | send (bytes : Bytes) :
      Deed kind id s { s with reactor := { s.reactor with host := (s.receiver.send bytes s.reactor.host).2 } }
  | tick : Deed kind id s { s with reactor := { s.reactor with host := s.reactor.host.readTimer.2 } }
  | refuse {listener : Endpoint} {error : SystemError} (failed : (s.reactor.host.accept listener).1 = .error error) :
      Deed kind id s { s with reactor := { s.reactor with host := (s.reactor.host.accept listener).2 } }
  | accept {listener e : Endpoint} {peer : Kind} (ok : (s.reactor.host.accept listener).1 = .ok e)
      (admits : admitted? kind = some peer) :
      Deed kind id s { s with reactor := (({ s.reactor with host := (s.reactor.host.accept listener).2 } : Reactor).register
        s.state.filter.allowed peer (.ofEndpoint e) Flags.input).2 }
  | unregister (peer : admitted? kind = none) : Deed kind id s { s with reactor := (s.reactor.unregister id).2 }
  | forward (application : kind = .appMsg) (bytes : Bytes) :
      Deed kind id s { s with reactor := (s.reactor.sendTo consumers bytes).2 }
  | level (n : Nat) (leads : kind ∈ levelers) :
      Deed kind id s { s with state := (Site.applyLevel n ⟨s.state, s.reactor⟩).2.state,
                              reactor := (Site.applyLevel n ⟨s.state, s.reactor⟩).2.reactor }
  | note (stats : Stats) (notices : Option (List Notice)) (exit : Bool)
      (forwarding : kind ≠ .appMsg → stats.appBytes = s.state.stats.appBytes ∧ stats.forwarded = s.state.stats.forwarded) :
      Deed kind id s { s with state := { s.state with stats, notices, exit } }

abbrev Deeds (kind : Kind) (id : Nat) : Scene State → Scene State → Prop := ReflTransGen (Deed kind id)

variable {kind peer : Kind} {id : Nat} {α β : Type}

theorem admitted?_leveler (leads : kind ∈ levelers) : admitted? kind = none := by
  cases kind <;> first | rfl | exact absurd leads (by decide)

abbrev Performs (kind : Kind) (id : Nat) (t : Turn State α) : Prop := t.Respects (Deeds kind id)

theorem performs_pure (a : α) : Performs kind id (pure a : Turn State α) := Turn.respects_pure (fun _ => .refl) a

theorem performs_throw (message : String) : Performs kind id (throw message : Turn State α) :=
  Turn.respects_throw (fun _ => .refl) message

theorem performs_bind {t : Turn State α} {f : α → Turn State β} (first : Performs kind id t)
    (rest : ∀ a, Performs kind id (f a)) : Performs kind id (t >>= f) :=
  first.bind (fun _ _ _ => ReflTransGen.trans) rest

theorem performs_get : Performs kind id (get : Turn State (Scene State)) := fun _ => .refl

theorem performs_orFail {ε : Type} (message : ε → String) (outcome : Except ε α) :
    Performs kind id (Turn.orFail message outcome : Turn State α) :=
  Turn.respects_orFail (fun _ => .refl) message outcome

theorem performs_fill : Performs kind id (Turn.receiver Receiver.fill) := fun _ => .single .fill

theorem performs_dropPeer (peer : admitted? kind = none) : Performs kind id (dropPeer id) :=
  performs_bind (fun _ => .single (.unregister peer)) fun _ => performs_orFail _ _

theorem performs_fillOrDrop (peer : admitted? kind = none) : Performs kind id (fillOrDrop id) := by
  refine performs_bind performs_fill fun outcome => ?_
  split
  · exact performs_pure _
  · exact performs_pure _
  · exact performs_bind (performs_dropPeer peer) fun _ => performs_pure _
  · exact performs_bind (performs_dropPeer peer) fun _ => performs_pure _

theorem performs_consume {f : Receiver → Host → α × Receiver × Host}
    (takes : ∀ receiver host, ∃ n, (f receiver host).2 = (receiver.consume n, host)) :
    Performs kind id (Turn.receiver f) := by
  intro s
  obtain ⟨n, eq⟩ := takes s.receiver s.reactor.host
  change Deeds kind id s { s with receiver := (f s.receiver s.reactor.host).2.1,
                                  reactor := { s.reactor with host := (f s.receiver s.reactor.host).2.2 } }
  rw [eq]
  exact .single (.consume n)

theorem performs_takeBuffer : Performs kind id takeBuffer :=
  performs_consume fun receiver _ => ⟨receiver.buffer.length, rfl⟩

theorem performs_takeRequest : Performs kind id takeRequest := by
  refine performs_consume fun receiver _ => ?_
  split
  · exact ⟨0, rfl⟩
  · exact ⟨0, rfl⟩
  · exact ⟨_, rfl⟩

theorem performs_note (f : Stats → Stats)
    (forwarding : kind ≠ .appMsg → ∀ t, (f t).appBytes = t.appBytes ∧ (f t).forwarded = t.forwarded) :
    Performs kind id (Turn.site fun s => ((), s.changeStats f)) := fun s =>
  .single (.note (f s.state.stats) s.state.notices s.state.exit fun other => forwarding other s.state.stats)

theorem performs_ignore (peer : admitted? kind = none) : Performs kind id (ignore id) := by
  refine performs_bind (performs_fillOrDrop peer) fun read => ?_
  split
  · exact performs_bind performs_takeBuffer fun _ => performs_pure _
  · exact performs_pure _

theorem performs_forward : Performs .appMsg id (forward id) := by
  refine performs_bind (performs_fillOrDrop rfl) fun read => ?_
  split
  · refine performs_bind performs_takeBuffer fun bytes => ?_
    exact performs_bind (fun _ => .single (.forward rfl bytes)) fun _ => performs_note _ fun other => absurd rfl other
  · exact performs_pure _

theorem performs_timer (name : Kind) : Performs kind id (timer name id) := by
  refine performs_bind performs_get fun scene => ?_
  split
  · refine performs_bind (fun _ => .single .tick) fun answer => ?_
    split
    · exact performs_pure _
    · exact performs_pure _
    · exact performs_throw _
  · exact performs_throw _

def placed (s : Scene State) (site : Site) : Scene State := { s with state := site.state, reactor := site.reactor }

theorem run_site (f : Site → α × Site) (k : α → Turn State β) (s : Scene State) :
    (Turn.site f >>= k).run.run s =
      (k (f ⟨s.state, s.reactor⟩).1).run.run (placed s (f ⟨s.state, s.reactor⟩).2) := rfl

theorem performs_serve (leads : kind ∈ levelers) (request : Request) :
    Performs kind id (Turn.site (Site.serve request)) := by
  intro s
  change Deeds kind id s (placed s (Site.serve request ⟨s.state, s.reactor⟩).2)
  unfold Site.serve
  dsimp only
  generalize counted : Site.changeStats ⟨s.state, s.reactor⟩ (fun t => { t with controlRequests := t.controlRequests + 1 }) = t
  have first : Deeds kind id s (placed s t) := counted ▸ .single (.note _ s.state.notices s.state.exit fun _ => ⟨rfl, rfl⟩)
  have second : Deeds kind id s (placed s (t.respond request).2) := by
    rcases Site.respond_level request t with same | ⟨n, -, level⟩
    · rwa [same]
    · rw [level]
      exact first.tail (.level n leads)
  split
  · exact second.tail (.note _ (t.respond request).2.state.notices (t.respond request).2.state.exit fun _ => ⟨rfl, rfl⟩)
  · exact second

theorem performs_serveAll (leads : kind ∈ levelers) (fuel : Nat) : Performs kind id (serveAll id fuel) := by
  induction fuel with
  | zero => exact performs_pure _
  | succ fuel ih =>
      refine performs_bind performs_takeRequest fun request => ?_
      split
      · exact performs_dropPeer (admitted?_leveler leads)
      · exact performs_pure _
      · refine performs_bind (performs_serve leads _) fun response => ?_
        refine performs_bind (fun _ => .single (.send _)) fun sent => ?_
        split
        · exact performs_dropPeer (admitted?_leveler leads)
        · exact ih

theorem performs_stream (leads : kind ∈ levelers) : Performs kind id (stream id) := by
  refine performs_bind (performs_fillOrDrop (admitted?_leveler leads)) fun read => ?_
  split
  · exact performs_bind performs_get fun _ => performs_serveAll leads _
  · exact performs_pure _

theorem performs_drainWake (peer : admitted? kind = none) (fuel : Nat) : Performs kind id (drainWake id fuel) := by
  induction fuel with
  | zero => exact performs_pure _
  | succ fuel ih =>
      refine performs_bind performs_fill fun outcome => ?_
      split
      · exact performs_throw _
      · exact performs_pure _
      · exact performs_dropPeer peer
      · exact performs_bind performs_takeBuffer fun _ => ih

theorem drain_notices (fuel : Nat) (s : Site) :
    ∃ notices, (s.drain fuel).2 = { s with state := { s.state with notices } } := by
  induction fuel generalizing s with
  | zero => exact ⟨s.state.notices, rfl⟩
  | succ fuel ih =>
      unfold Site.drain
      split <;> rename_i eq <;> unfold Site.dequeue at eq <;> split at eq <;> cases eq
      · exact ⟨s.state.notices, rfl⟩
      · obtain ⟨notices, rest⟩ := ih _
        exact ⟨notices, rest⟩

theorem performs_takeNotices : Performs kind id (Turn.site Site.takeNotices) := by
  intro s
  obtain ⟨notices, eq⟩ := drain_notices ((s.state.notices.getD []).length) ⟨s.state, s.reactor⟩
  change Deeds kind id s (placed s (Site.takeNotices ⟨s.state, s.reactor⟩).2)
  rw [Site.takeNotices, eq]
  exact .single (.note s.state.stats notices s.state.exit fun _ => ⟨rfl, rfl⟩)

theorem performs_applyNotices (leads : kind ∈ levelers) (notices : List Notice) :
    Performs kind id (Turn.site (Site.applyNotices notices)) := by
  induction notices with
  | nil => exact fun _ => .refl
  | cons notice rest ih =>
      intro s
      change Deeds kind id s (placed s (Site.applyNotices (notice :: rest) ⟨s.state, s.reactor⟩).2)
      have step : Deeds kind id s (placed s (Site.applyLevel (Site.levelOf s.state.filter notice) ⟨s.state, s.reactor⟩).2) :=
        .single (.level _ leads)
      unfold Site.applyNotices
      split <;> rename_i eq <;> rw [eq] at step
      · exact step.trans (ih _)
      · split
        · exact step
        · exact step.trans (ih _)

theorem performs_backend (leads : kind ∈ levelers) : Performs kind id (backend id) := by
  refine performs_bind performs_get fun scene => ?_
  refine performs_bind (performs_drainWake (admitted?_leveler leads) _) fun _ => ?_
  refine performs_bind performs_takeNotices fun notices => ?_
  exact performs_bind (performs_applyNotices leads notices) fun _ => performs_orFail _ _

theorem performs_acceptAll (admits : admitted? kind = some peer) (fatal : Bool) (listener : Endpoint) (fuel : Nat) :
    Performs kind id (acceptAll peer fatal listener fuel) := by
  induction fuel with
  | zero => exact performs_pure _
  | succ fuel ih =>
      intro s
      unfold acceptAll
      rw [Turn.run_receiver]
      dsimp only
      have refused {error : SystemError} (failed : (s.reactor.host.accept listener).1 = .error error) :
          Deeds kind id s { s with reactor := { s.reactor with host := (s.reactor.host.accept listener).2 } } :=
        .single (.refuse failed)
      split <;> rename_i outcome
      · exact refused outcome
      · exact (refused outcome).trans (ih _)
      · have fails : ∀ message, Performs kind id (throw message : Turn State Unit) := performs_throw
        split
        · exact (refused outcome).trans
            (performs_bind (fun _ => .single (.note _ _ true fun _ => ⟨rfl, rfl⟩)) (fun _ => fails _) _)
        · exact refused outcome
      · rename_i e
        rw [run_site]
        refine ReflTransGen.trans ?_ (ih _)
        have admitted : Deed kind id s _ := .accept outcome admits
        rw [Site.react_eq]
        dsimp only
        split <;> rename_i eq <;> obtain ⟨-, rfl⟩ := Prod.mk.inj eq
        · exact (ReflTransGen.single admitted).tail (.note _ s.state.notices s.state.exit fun _ => ⟨rfl, rfl⟩)
        · exact .single admitted

theorem performs_accept (admits : admitted? kind = some peer) (fatal : Bool) : Performs kind id (accept peer fatal id) := by
  refine performs_bind performs_get fun scene => ?_
  split
  · exact performs_throw _
  · exact performs_acceptAll admits fatal _ _

theorem performs_ofKind (kind : Kind) (id : Nat) : Performs kind id (ofKind kind id) := by
  cases kind with
  | clientConnect => exact performs_accept rfl false
  | appConnect => exact performs_accept rfl false
  | controlConnect => exact performs_accept rfl true
  | clientMsgTcp => exact performs_stream (by decide)
  | clientMsgSerial => exact performs_stream (by decide)
  | controlMsg => exact performs_stream (by decide)
  | appMsg => exact performs_forward
  | oneSecondTimer => exact performs_timer _
  | sixtySecondTimer => exact performs_timer _
  | watchdogTimer => exact performs_timer _
  | gatewayTimer => exact performs_timer _
  | filterBackend => exact performs_backend (by decide)
  | offlineTrace => exact performs_ignore rfl
  | offlineLogstorage => exact performs_ignore rfl
  | gateway => exact performs_ignore rfl

end Handlers

end TraceGate
