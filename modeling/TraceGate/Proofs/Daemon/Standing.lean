import TraceGate.Proofs.Daemon.Control
import TraceGate.Proofs.Daemon.Service

namespace TraceGate

open Connection Relation

namespace Reactor

variable {loan : Option Loan} {r r' : Reactor} {c : Connection} {policy : KindSet} {id : Nat}

theorem Foremost.mem_checkActivate (foremost : r.Foremost) (mem : c ∈ r.connections) (active : c.IsActive)
    (allowed : c.kind ∈ policy) (id : Nat) : c ∈ (r.checkActivate id policy .activate).2.connections := by
  by_cases own : c.id = id
  · rw [checkActivate_of_active (own ▸ foremost.found mem active) active allowed]
    exact mem
  · unfold Reactor.checkActivate
    cases found : r.connection? id with
    | none => exact mem
    | some d =>
        obtain rfl : d.id = id := (connection?_split found).1
        dsimp only
        split
        · dsimp only
          split
          · exact mem
          · exact mem_deactivate_of_ne mem own
        · split
          · exact mem_activate_of_ne mem own
          · exact mem
        · exact mem

theorem Foremost.mem_checkAll (foremost : r.Foremost) (mem : c ∈ r.connections) (active : c.IsActive)
    (allowed : c.kind ∈ policy) (ids : List Nat) : c ∈ (r.checkAll policy ids).2.connections := by
  induction ids generalizing r with
  | nil => exact mem
  | cons id ids ih =>
      have kept := foremost.mem_checkActivate mem active allowed id
      have first := foremost.checkActivate id policy .activate
      unfold Reactor.checkAll
      split <;> rename_i eq <;> rw [eq] at kept first
      · exact ih first kept
      · exact kept

theorem Foremost.mem_register (foremost : r.Foremost) (mem : c ∈ r.connections) (active : c.IsActive)
    (allowed : c.kind ∈ policy) (kind : Kind) (receiver : Receiver) (wanted : Flags) :
    c ∈ (r.register policy kind receiver wanted).2.connections := by
  unfold Reactor.register
  split
  · exact mem
  · dsimp only
    have added := Foremost.add (r := { r with ids := r.ids.take.2 }) foremost (.new r.ids.take.1 kind receiver wanted)
      (by simp [Connection.new])
    have joined : c ∈ (({ r with ids := r.ids.take.2 } : Reactor).add (.new r.ids.take.1 kind receiver wanted)).connections :=
      List.mem_append_left _ mem
    have checked := added.mem_checkActivate joined active allowed r.ids.take.1
    split <;> rename_i eq
    · rw [eq] at checked
      exact checked
    · have same := checkActivate_of_error (congrArg Prod.fst eq)
      rw [eq] at same
      dsimp only at same ⊢
      rw [same]
      simpa [withdraw, Reactor.add] using mem

theorem Foremost.mem_assign (foremost : r.Foremost) (mem : c ∈ r.connections) (active : c.IsActive) (id : Nat)
    (e : Endpoint) : c ∈ (r.assign id e).2.connections := by
  unfold Reactor.assign
  dsimp only
  split
  · exact mem
  · rename_i d found
    split
    · exact mem
    · rename_i idle
      split
      · exact mem
      · refine mem_updateFirst_of_not mem ?_
        simp only [beq_iff_eq]
        rintro rfl
        rw [foremost.found mem active] at found
        cases found
        exact idle active

theorem Coherent.mem_unregister (coherent : r.Coherent loan) (mem : c ∈ r.connections) (other : c.id ≠ id) :
    c ∈ (r.unregister id).2.connections := by
  rw [(coherent.unregister_connections id).1]
  exact (List.mem_eraseP_of_neg (by simpa using other)).2 mem

theorem Coherent.slot (coherent : r.Coherent loan) (mem : c ∈ r.connections) (active : c.IsActive) :
    ∃ fd slot, c.fd = some fd ∧ slot.wanted = c.wanted ∧ r.table.occupied.filter (·.fd = (fd : Int)) = [slot] := by
  have tracks := coherent.books.tracks
  obtain ⟨fd, known⟩ := Option.isSome_iff_exists.1
    ((coherent.books.settled c mem).activity.resolve_left (by rw [active]; decide)).2
  have watched := tracks.same.mem_iff.2 (List.mem_filterMap.2 ⟨c, mem, watch?_of_active active known⟩)
  obtain ⟨slot, listed, same⟩ := List.mem_map.1 watched
  obtain ⟨own, wanted⟩ := Prod.mk.inj same
  refine ⟨fd, slot, known, wanted, ?_⟩
  have distinct := tracks.occupied_nodup
  obtain ⟨before, after, split⟩ := List.append_of_mem listed
  simp only [split, List.map_append, List.map_cons, List.nodup_middle, List.nodup_cons, List.mem_append, not_or] at distinct
  have apart {l : List Slot} (absent : slot.fd ∉ l.map (·.fd)) : l.filter (·.fd = (fd : Int)) = [] := by
    refine List.filter_eq_nil_iff.2 fun other among same => absent ?_
    rw [own, ← of_decide_eq_true same]
    exact List.mem_map_of_mem among
  simp [split, own, apart distinct.1.1, apart distinct.1.2]

inductive Occurs : Option Loan → Reactor → Prop
  | between {r : Reactor} (reachable : r.Reachable) : Occurs none r
  | handler {σ : Type} {r : Reactor} {handlers : Kind → Handler σ} {wait : Wait} {state : σ} {id : Nat} {s : Scene σ}
      (before : r.Reachable) (acts : ∀ kind, (handlers kind).Acts anyGift) (meets : Meets wait handlers r state id s) :
      Occurs (some (s.loan id)) s.reactor

theorem Meets.foremost {σ : Type} {handlers : Kind → Handler σ} {wait : Wait} {state : σ} {s : Scene σ}
    (meets : Meets wait handlers r state id s) (acts : ∀ kind, (handlers kind).Acts anyGift) (reachable : r.Reachable) :
    s.reactor.Foremost := by
  obtain @⟨answer, sighting, q, state', c, receiver, s, seen, comes, target, held, steps⟩ := meets
  have before := comesUp_invariant (I := fun q (_ : σ) => q.Coherent none ∧ q.Foremost)
    (fun s q state ih => ⟨(ih.1.attend acts s state).1, ih.2.attend ih.1 acts s state⟩) comes
    ⟨reachable.coherent.awoken _, reachable.foremost⟩
  have opened := before.1.opening (Sighting.target?_eq_some target).2.1 held state'
  have start : (q.opening c.id receiver state').reactor.Foremost := before.2.update lend (fun _ => rfl) c.id
  induction steps with
  | refl => exact start
  | tail steps step ih =>
      cases step with
      | operation operation => exact operation.foremost (Scene.steps_coherent steps opened) ih
      | outside elapses _ _ => exact elapses.foremost ih

theorem Occurs.coherent (occurs : r.Occurs loan) : r.Coherent loan := by
  cases occurs with
  | between reachable => exact reachable.coherent
  | handler before acts meets => exact meets.coherent acts before.coherent

theorem Occurs.foremost (occurs : r.Occurs loan) : r.Foremost := by
  cases occurs with
  | between reachable => exact reachable.foremost
  | handler before acts meets => exact meets.foremost acts before

end Reactor

namespace Site

open Reactor

variable {loan : Option Loan} {s t : Site} {c : Connection} {gone : List Nat}

theorem ensureListener_mem (foremost : s.reactor.Foremost) (mem : c ∈ s.reactor.connections) (active : c.IsActive)
    (allowed : c.kind ∈ s.state.filter.allowed) (address : Net.Address) :
    c ∈ (s.ensureListener address).2.reactor.connections := by
  unfold Site.ensureListener Site.openListener
  rcases s.reactor.host.listenNetwork address with ⟨_ | e, host⟩
  · dsimp only [Except.mapError]
    split
    · split
      · exact mem
      · exact mem
    · exact mem
  · have foremost : ({ s.reactor with host } : Reactor).Foremost := foremost
    dsimp only [Except.mapError]
    split
    · split
      · exact foremost.mem_assign mem active _ e
      · exact mem
    · have joined := foremost.mem_register mem active allowed .clientConnect (.ofEndpoint e) Flags.input
      rw [react_eq]
      split <;> rename_i done <;> obtain ⟨-, rfl⟩ := Prod.mk.inj done <;> exact joined

theorem ensureEach_mem (addresses : List Net.Address) (coherent : s.reactor.Coherent loan)
    (foremost : s.reactor.Foremost) (mem : c ∈ s.reactor.connections) (active : c.IsActive)
    (allowed : c.kind ∈ s.state.filter.allowed) : c ∈ (s.ensureEach addresses).2.reactor.connections := by
  induction addresses generalizing s with
  | nil => exact mem
  | cons address addresses ih =>
      have first := ensureListener_mem foremost mem active allowed address
      have keeps := (ensureListener_goes address s).keeps coherent foremost
      have state := (ensureListener_extends address s).state
      unfold Site.ensureEach
      split <;> rename_i eq <;> rw [eq] at first keeps state
      · exact first
      · refine ih keeps.1 keeps.2 first ?_
        rw [state]
        exact allowed

theorem ensureListeners_mem (coherent : s.reactor.Coherent loan) (foremost : s.reactor.Foremost)
    (mem : c ∈ s.reactor.connections) (active : c.IsActive) (allowed : c.kind ∈ s.state.filter.allowed) :
    c ∈ s.ensureListeners.2.reactor.connections := by
  unfold Site.ensureListeners
  split
  · exact ensureEach_mem _ (s := s.forgetListeners) coherent foremost mem active allowed
  · exact mem

structure Upholds (loan : Option Loan) (c : Connection) (s : Site) : Prop where
  coherent : s.reactor.Coherent loan
  foremost : s.reactor.Foremost
  configured : ∃ config level, Filter.MessageFilter.Stands config level s.state.filter
  mem : c ∈ s.reactor.connections

section

variable (upholds : s.Upholds loan c) (active : c.IsActive) (standing : c.kind ∈ KindSet.standing)

include upholds

theorem Upholds.configured_applyLevel (level : Nat) :
    ∃ config level', Filter.MessageFilter.Stands config level' (s.applyLevel level).2.state.filter := by
  obtain ⟨config, current, stands⟩ := upholds.configured
  rcases applyLevel_cases level s with ⟨e, -, same⟩ | ⟨change, filter, changed, ⟨_, _, state⟩, -⟩
  · rw [same]
    exact ⟨config, current, stands⟩
  · rw [state]
    exact ⟨config, level, stands.changeLevel changed⟩

include active standing

theorem Upholds.applyLevel (level : Nat) : (s.applyLevel level).2.Upholds loan c := by
  obtain ⟨coherent, foremost⟩ := (applyLevel_goes level s).keeps upholds.coherent upholds.foremost
  refine ⟨coherent, foremost, upholds.configured_applyLevel level, ?_⟩
  obtain ⟨config, current, stands⟩ := upholds.configured
  unfold Site.applyLevel
  cases changed : s.state.filter.changeLevel level with
  | error e => exact upholds.mem
  | ok outcome =>
      obtain ⟨change, filter⟩ := outcome
      have allowed : c.kind ∈ filter.allowed := (stands.changeLevel changed).standing standing
      have ensured := ensureListeners_mem (s := s.setFilter filter) upholds.coherent upholds.foremost upholds.mem active allowed
      have keeps := (ensureListeners_goes (s.setFilter filter)).keeps upholds.coherent upholds.foremost
      have state := (ensureListeners_extends (s.setFilter filter)).state
      dsimp only
      split <;> rename_i eq <;> rw [eq] at ensured keeps state
      · exact ensured
      · rename_i t
        have still : c.kind ∈ t.state.filter.allowed := by
          rw [state]
          exact allowed
        have aligned := keeps.2.mem_checkAll ensured active still (t.reactor.idsOf .all)
        rw [react_eq]
        split <;> rename_i done <;> obtain ⟨-, rfl⟩ := Prod.mk.inj done <;> exact aligned

end

/-- A run of levels, with whatever else comes and goes between them. The numbers are of what was unregistered. -/
inductive Levels (loan : Option Loan) (s : Site) : List Nat → Site → Prop
  | refl : Levels loan s [] s
  | apply {gone : List Nat} {t : Site} (before : Levels loan s gone t) (level : Nat) :
      Levels loan s gone (t.applyLevel level).2
  | register {gone : List Nat} {t : Site} (before : Levels loan s gone t) (kind : Kind) {e : Endpoint}
      (loose : t.reactor.Loose loan e) (wanted : Flags) :
      Levels loan s gone
        (t.react (Reactor.register t.state.filter.allowed kind (.ofEndpoint e) wanted)).2
  | unregister {gone : List Nat} {t : Site} (before : Levels loan s gone t) (id : Nat) :
      Levels loan s (id :: gone) (t.react (Reactor.unregister id)).2
  | outside {gone : List Nat} {t : Site} (before : Levels loan s gone t) {host : Host}
      (grows : Host.Grows t.reactor.host host) (room : Option Nat) : Levels loan s gone
        { t with reactor := { t.reactor with host, table := { t.reactor.table with room } } }

theorem Levels.upholds (levels : Levels loan s gone t) (upholds : s.Upholds loan c) (active : c.IsActive)
    (standing : c.kind ∈ KindSet.standing) (registered : c.id ∉ gone) : t.Upholds loan c := by
  induction levels with
  | refl => exact upholds
  | apply before level ih => exact (ih registered).applyLevel active standing level
  | @register gone t before kind e loose wanted ih =>
      obtain ⟨coherent, foremost, ⟨config, level, stands⟩, mem⟩ := ih registered
      obtain ⟨coherent, kept⟩ := (Goes.register t.state.filter.allowed kind wanted loose).keeps coherent foremost
      exact ⟨coherent, kept, ⟨config, level, stands⟩,
        foremost.mem_register mem active (stands.standing standing) kind (.ofEndpoint e) wanted⟩
  | unregister before id ih =>
      rw [List.mem_cons, not_or] at registered
      obtain ⟨coherent, foremost, configured, mem⟩ := ih registered.2
      exact ⟨(coherent.unregister id).1, coherent.unregister_foremost foremost id, configured,
        coherent.mem_unregister mem registered.1⟩
  | outside before grows room ih =>
      obtain ⟨coherent, foremost, configured, mem⟩ := ih registered
      have grown := coherent.grow grows
      exact ⟨⟨grown.sound, { grown.books with tracks := tracks_room grown.books.tracks room }, grown.present, grown.counted⟩,
        foremost, configured, mem⟩

/-- An active connection of a standing kind is active with the same descriptor all through a run of levels, be they
applied or refused or not, and one slot of the table watches it. -/
theorem Levels.standing_stays {config : Filter.Config} {level : Int} (levels : Levels loan s gone t)
    (built : Filter.MessageFilter.LevelRun config level s.state.filter) (occurs : s.reactor.Occurs loan)
    (mem : c ∈ s.reactor.connections) (active : c.IsActive) (standing : c.kind ∈ KindSet.standing)
    (registered : c.id ∉ gone) :
    c ∈ t.reactor.connections ∧ ∃ fd slot, c.fd = some fd ∧ slot.wanted = c.wanted ∧
      t.reactor.table.occupied.filter (·.fd = (fd : Int)) = [slot] := by
  have upholds := levels.upholds ⟨occurs.coherent, occurs.foremost, ⟨config, level, built.stands⟩, mem⟩ active standing
    registered
  exact ⟨upholds.mem, upholds.coherent.slot upholds.mem active⟩

end Site

namespace Unbindable

open TraceGate.Filter

def config : Config where
  general := { name := "unbindable", defaultLevel := 10 }
  filters := [{ name := "quiet", level := 50, clients := "Serial,, nobody" }, { name := "open", level := 100, clients := "*" }]

def filter : MessageFilter := (MessageFilter.ofConfig config).toOption.get (by decide +kernel)

def settings : Settings := { appSocket := "/dlt", controlSocket := "/ctrl", bindAddresses := [.v4 10 0 0 1] }

def site : Site := ⟨{ settings, filter }, Quitting.start⟩

def ended : Site := (((site.applyLevel 300).2.applyLevel 60).2.applyLevel 20).2

theorem application_stays : ((site.applyLevel 300).2.applyLevel 60).1.isOk = false ∧
    ∃ c ∈ ended.reactor.connections, c.IsActive ∧ c.kind = .appMsg ∧
      ∃ slot, ended.reactor.table.occupied.filter (·.fd = 3) = [slot] := by
  have built : MessageFilter.ofConfig config = .ok filter := Reactor.toOption_eq_some.1 (Option.some_get _).symm
  have found : ∃ c ∈ site.reactor.connections, c.IsActive ∧ c.kind = .appMsg ∧ c.fd = some 3 := by decide
  obtain ⟨c, mem, active, kind, known⟩ := found
  have levels : Site.Levels none site [] ended := .apply (.apply (.apply .refl 300) 60) 20
  obtain ⟨still, fd, slot, same, -, watched⟩ := levels.standing_stays (.start built) (.between Quitting.start_reachable) mem
    active (kind ▸ by decide) List.not_mem_nil
  obtain rfl : fd = 3 := Option.some_inj.1 (same.symm.trans known)
  exact ⟨by decide +kernel, c, still, active, kind, slot, watched⟩

end Unbindable

end TraceGate
