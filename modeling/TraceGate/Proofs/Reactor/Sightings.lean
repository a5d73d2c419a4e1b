import TraceGate.Proofs.Reactor.Custody
import TraceGate.Proofs.Reactor.Reachable

/-!
# What a sighting is acted on for

Something is seen of the endpoints that are open during a wait, but it is dealt with later, when their
descriptors may belong to others. A round goes by the number of the connection and by the descriptor.
So it acts on the endpoint that was seen, unless the connection has got another one under the same
descriptor since.
-/

namespace TraceGate

open Connection Relation

def Host.Names (h : Host) (fd : Int) (e : Endpoint) : Prop :=
  h.IsOpen e ∧ e.fd = fd ∧ ∀ e', h.IsOpen e' → e'.fd = fd → e' = e

namespace Reactor

variable {σ : Type} {gives : Nat → Endpoint → Prop} {h : Host} {loan : Option Loan} {r r' q : Reactor}
  {c : Connection} {s : Sighting} {seen : List Flags} {handlers : Kind → Handler σ} {state state' : σ}

/-- Since the wait the connection has been given another endpoint, with the descriptor it had then. -/
structure Renewed (gives : Nat → Endpoint → Prop) (r : Reactor) (c : Connection) (e : Endpoint) : Prop where
  new : r.host.next ≤ e.id
  given : gives c.id e
  same : ∃ d ∈ r.connections, d.id = c.id ∧ d.fd = some e.fd

structure Since (gives : Nat → Endpoint → Prop) (h : Host) (loan : Option Loan) (r : Reactor) : Prop where
  next_le : h.next ≤ r.host.next
  opened : ∀ e, r.host.IsOpen e → h.IsOpen e ∨ h.next ≤ e.id
  held : ∀ c ∈ r.connections, ∀ e, c.endpoint? = some e → h.IsOpen e ∨ gives c.id e
  lent : ∀ l, loan = some l → ∀ e, l.endpoint = some e → h.IsOpen e ∨ gives l.id e

theorem Coherent.since (coherent : r.Coherent none) : Since gives r.host none r where
  next_le := le_rfl
  opened _ := Or.inl
  held c mem e eq := by
    refine Or.inl (coherent.books.isOpen e (List.mem_append_left _ ?_))
    exact List.mem_filterMap.2 ⟨c, mem, eq⟩
  lent := by
    rintro _ ⟨⟩

theorem Since.custody {loan' : Option Loan} (since : Since gives h loan r)
    (custody : Custody (fun id _ e => h.IsOpen e ∨ gives id e) r r')
    (lent : ∀ l, loan' = some l → ∀ e, l.endpoint = some e → h.IsOpen e ∨ gives l.id e) :
    Since gives h loan' r' where
  next_le := since.next_le.trans custody.next_le
  opened e isOpen := by
    rcases custody.opened e isOpen with old | new
    · exact since.opened e old
    · exact Or.inr (since.next_le.trans new)
  held c mem e eq := by
    rcases custody.held c mem e eq with ⟨d, mem, id, -, eq⟩ | new
    · rw [← id]
      exact since.held d mem e eq
    · exact new
  lent := lent

theorem Operation.custody {origin : Nat → Endpoint → Prop} {error : Option EventError}
    (operation : Operation gives loan r error r') (given : ∀ id e, gives id e → origin id e) :
    Custody (fun id _ e => origin id e) r r' := by
  cases operation with
  | register policy kind receiver wanted loose gift =>
      exact Custody.register r policy kind receiver wanted fun e eq => given _ e (gift e eq)
  | unregister id => exact Custody.unregister r id
  | checkActivate id policy transition => exact Custody.checkActivate r id policy transition
  | reconcile policy kinds => exact Custody.checkAll r policy _
  | assign id e loose gift => exact Custody.assign r id e fun _ _ _ => given id e gift
  | sendTo kinds bytes => exact Custody.sendTo r kinds bytes
  | cleanup => exact Custody.cleanup r

theorem Since.step {id : Nat} {scene scene' : Scene σ} (step : Scene.Step gives id scene scene')
    (since : Since gives h (some (scene.loan id)) scene.reactor) :
    Since gives h (some (scene'.loan id)) scene'.reactor := by
  cases step with
  | operation operation => exact since.custody (operation.custody fun _ _ => Or.inr) since.lent
  | outside elapses isOpen given =>
      refine ⟨since.next_le.trans elapses.next_le, fun e isOpen => ?_, fun c mem => ?_, ?_⟩
      · rcases elapses.opened e isOpen with old | new
        · exact since.opened e old
        · exact Or.inr (since.next_le.trans new)
      · rw [elapses.rest] at mem
        exact since.held c mem
      · rintro _ ⟨⟩ e eq
        rcases given e eq with same | ⟨-, new⟩
        · exact since.lent _ rfl e same
        · exact Or.inr new

theorem Since.attend (since : Since gives h none r) (coherent : r.Coherent none)
    (acts : ∀ kind, (handlers kind).Acts gives) (s : Sighting) (state : σ) :
    Since gives h none (r.attend handlers s state).2.1 := by
  have nobody : ∀ l, (none : Option Loan) = some l → ∀ e, l.endpoint = some e → h.IsOpen e ∨ gives l.id e := by
    rintro _ ⟨⟩
  refine coherent.attend_induction acts since ?_ ?_ (fun _ _ _ step _ since => since.step step) ?_ s state
  · exact fun id => since.custody (Custody.unregister r id) nobody
  · intro c mem receiver held
    refine since.custody (Custody.lend r c.id) ?_
    rintro _ ⟨⟩ e eq
    refine since.held c mem e ?_
    rw [endpoint?_of_receiver held]
    exact eq
  · exact fun id receiver q since =>
      since.custody (Custody.restore q id receiver fun _ _ _ e eq => since.lent _ rfl e eq) nobody

theorem ComesUp.mem {sightings : List Sighting} (comes : ComesUp handlers s q state' sightings r state) :
    s ∈ sightings := by
  induction comes with
  | here => exact List.mem_cons_self
  | later _ _ ih => exact List.mem_cons_of_mem _ ih

theorem sightings_owner {t : Reactor} (mem : s ∈ t.sightings) {id : Nat} (owner : s.owner = some id) :
    ∃ d ∈ t.connections, d.id = id ∧ ∃ n : Nat, d.fd = some n ∧ n = s.fd := by
  obtain ⟨⟨fd, flags⟩, -, rfl⟩ := List.mem_map.1 mem
  obtain ⟨d, found, key⟩ := Option.map_eq_some_iff.1 owner
  have hit := List.find?_some found
  obtain ⟨n, known, same⟩ := (Option.any_eq_true _ _).1 hit
  exact ⟨d, List.mem_of_find?_eq_some found, key, n, known, by simpa using same⟩

/-- A sighting is acted on for the endpoint that had the descriptor during the wait, exactly unless the
connection has been given another one under the same descriptor since. If there is no connection to act
on, nothing happens. -/
theorem Reachable.attend_endpoint (reachable : r.Reachable) (acts : ∀ kind, (handlers kind).Acts gives)
    (comes : ComesUp handlers s q state' ({ r with table := r.table.record seen } : Reactor).sightings
      (r.awoken seen) state) :
    (s.target? q = none → q.attend handlers s state' = (.ok 0, q, state')) ∧
    ∀ c, s.target? q = some c → ∃ e, c.endpoint? = some e ∧ q.host.IsOpen e ∧ e.fd = s.fd ∧
      (r.host.Names s.fd e ↔ ¬Renewed gives r c e) := by
  have coherent := reachable.coherent
  have sound := coherent.sound
  have custody : Custody (fun id _ e => r.host.IsOpen e ∨ gives id e) r (r.awoken seen) :=
    Custody.of_connections rfl fun c mem e eq => Or.inl ⟨c, mem, rfl, rfl, eq⟩
  have start : Since gives r.host none (r.awoken seen) := coherent.since.custody custody (by rintro _ ⟨⟩)
  have invariant := comesUp_invariant (I := fun p (_ : σ) => p.Coherent none ∧ Since gives r.host none p)
    (fun s p state both => ⟨(both.1.attend acts s state).1, both.2.attend both.1 acts s state⟩) comes
    ⟨coherent.awoken _, start⟩
  obtain ⟨coherent', since⟩ := invariant
  refine ⟨fun absent => ?_, fun c target => ?_⟩
  · unfold Reactor.attend
    rw [absent]
    dsimp only
    rw [coherent'.unwatchStray]
  · obtain ⟨owner, found, active, own⟩ := Sighting.target?_eq_some target
    have mem := connection?_mem found
    obtain ⟨receiver, e, held, endpoint, isOpen, fd⟩ := coherent'.backed c mem active
    have holds : c.endpoint? = some e := by rw [endpoint?_of_receiver held, endpoint]
    have number : (e.fd : Int) = s.fd := by
      rw [fd] at own
      exact Option.some.inj own
    refine ⟨e, holds, isOpen, number, fun names renewed => ?_, fun kept => ?_⟩
    · exact absurd (sound.numbers e names.1) (Nat.not_lt.2 renewed.new)
    · -- An endpoint that was not open during the wait was given to the connection since, under its old descriptor.
      have old : r.host.IsOpen e := by
        by_contra shut
        obtain ⟨d, origin, key, n, known, same⟩ := sightings_owner comes.mem owner
        refine kept ⟨?_, ?_, d, origin, key, ?_⟩
        · exact (since.opened e isOpen).resolve_left shut
        · exact (since.held c mem e holds).resolve_left shut
        · rw [known, show n = e.fd by omega]
      refine ⟨old, number, fun e' isOpen' same => ?_⟩
      exact sound.eq_of_fd isOpen' old (by omega)

/-- If no connection is given an endpoint with the descriptor that it had during the wait, every sighting
is acted on for the endpoint that had the descriptor then. -/
theorem Reachable.attend_same_endpoint (reachable : r.Reachable) (acts : ∀ kind, (handlers kind).Acts gives)
    (apart : ∀ id e, gives id e → ∀ d ∈ r.connections, d.id = id → d.fd ≠ some e.fd)
    (comes : ComesUp handlers s q state' ({ r with table := r.table.record seen } : Reactor).sightings
      (r.awoken seen) state) (target : s.target? q = some c) :
    ∃ e, c.endpoint? = some e ∧ r.host.Names s.fd e := by
  obtain ⟨e, holds, -, -, exact⟩ := (reachable.attend_endpoint acts comes).2 c target
  refine ⟨e, holds, exact.2 fun renewed => ?_⟩
  obtain ⟨d, mem, key, known⟩ := renewed.same
  exact apart c.id e renewed.given d mem key known

end Reactor

namespace Relisting

def listen (h : Host) : Endpoint × Host := h.openEndpoint .tcpListener (.listener none [])

def relist (r : Reactor) : Reactor :=
  let closed := (r.checkActivate 2 ∅ .deactivate).2
  let (e, host) := listen closed.host
  let assigned := (({ closed with host } : Reactor).assign 2 e).2
  (assigned.checkActivate 2 .all .activate).2

def handlers (_ : Kind) : Handler Unit := fun _ => Turn.reactor fun r => ((), relist r)

theorem handlers_acts (kind : Kind) : (handlers kind).Acts anyGift := by
  intro id s coherent
  have close : Scene.Step anyGift id s { s with reactor := (s.reactor.checkActivate 2 ∅ .deactivate).2 } :=
    .operation (.checkActivate 2 ∅ .deactivate)
  have closed := close.coherent coherent
  generalize eq : ({ s with reactor := (s.reactor.checkActivate 2 ∅ .deactivate).2 } : Scene Unit) = t at close closed
  have grows := Host.grows_openEndpoint t.reactor.host .tcpListener (.listener none [])
  have isOpen := (Host.openEndpoint_isOpen t.reactor.host .tcpListener (.listener none []) _).2 (Or.inr rfl)
  have listen : Scene.Step anyGift id t { t with reactor := { t.reactor with host := (listen t.reactor.host).2 } } :=
    Scene.Step.of_grows closed grows
  have loose := Reactor.Coherent.loose closed isOpen le_rfl
  have steps := ((ReflTransGen.single close).tail listen).tail (.operation (.assign 2 _ loose trivial))
  have last := steps.tail (.operation (.checkActivate 2 .all .activate))
  subst eq
  exact last

def application : Endpoint × Host := ({} : Host).openEndpoint .unixStream (.stream 0)

def listener : Endpoint × Host := listen application.2

def start : Reactor :=
  let first := (({ host := listener.2 } : Reactor).register .all .appMsg (.ofEndpoint application.1) Flags.input).2
  (first.register .all .clientConnect (.ofEndpoint listener.1) Flags.input).2

def seen : List Flags := [Flags.input, Flags.failed]

def failure : Reactor.Sighting := { fd := 4, seen := Flags.failed, owner := some 2 }

theorem start_reachable : start.Reachable := by
  have sound : listener.2.Sound :=
    (Host.grows_openEndpoint _ _ _).sound ((Host.grows_openEndpoint _ _ _).sound ⟨List.nodup_nil, by rintro e ⟨⟩⟩)
  have fresh : (({ host := listener.2 } : Reactor)).Reachable := .new sound {} none
  have first := fresh.operation (.register .all .appMsg (.ofEndpoint application.1) Flags.input ?_ fun _ _ => trivial)
  · refine first.operation (.register .all .clientConnect (.ofEndpoint listener.1) Flags.input ?_ fun _ _ => trivial)
    rintro _ ⟨⟩
    unfold Reactor.Loose Host.IsOpen
    decide
  · rintro _ ⟨⟩
    unfold Reactor.Loose Host.IsOpen
    decide

theorem listener_lost : ∃ q c e,
    Reactor.ComesUp handlers failure q () ({ start with table := start.table.record seen } : Reactor).sightings
      (start.awoken seen) () ∧
    failure.target? q = some c ∧ c.endpoint? = some e ∧ ¬start.host.Names failure.fd e ∧
      (q.attend handlers failure ()).2.1.connection? c.id = none := by
  let q := ((start.awoken seen).attend handlers { fd := 3, seen := Flags.input, owner := some 1 } ()).2.1
  have comes : Reactor.ComesUp handlers failure q ()
      ({ start with table := start.table.record seen } : Reactor).sightings (start.awoken seen) () :=
    .later rfl .here
  let new : Endpoint := { id := 2, fd := 4, kind := .tcpListener }
  let c : Connection := { id := 2, kind := .clientConnect, activity := .active, wanted := Flags.input,
                          receiver := some (.ofEndpoint new), fd := some 4 }
  have target : failure.target? q = some c := by decide
  obtain ⟨e, holds, -, -, exact⟩ := (start_reachable.attend_endpoint handlers_acts comes).2 c target
  obtain rfl : new = e := Option.some.inj holds
  have renewed : start.Renewed anyGift c new := ⟨by decide, trivial, by decide⟩
  exact ⟨q, c, new, comes, target, holds, fun names => exact.1 names renewed, by decide⟩

end Relisting

end TraceGate
