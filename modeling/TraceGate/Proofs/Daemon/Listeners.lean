import TraceGate.Proofs.Daemon.Footprint
import TraceGate.Proofs.Daemon.Obedience
import TraceGate.Proofs.Reactor.Tenure

namespace TraceGate

open Connection

theorem Reactor.Numbered.fresh {r : Reactor} (numbered : r.Numbered) (last : r.ids.next < idBound) :
    r.connection? r.ids.take.1 = none := by
  rw [take_eq numbered.positive last, connection?, List.find?_eq_none]
  intro c mem
  simp [(numbered.below c mem).ne]

namespace Site

open Reactor

structure Listed (loan : Option Loan) (s : Site) : Prop where
  coherent : s.reactor.Coherent loan
  numbered : s.reactor.Numbered
  lender : ∀ l, loan = some l → l.id < s.reactor.ids.next
  addresses : (s.state.listeners.map (·.2)).Nodup
  ids : (s.state.listeners.map (·.1)).Nodup
  named : ∀ l ∈ s.state.listeners, l.1 < s.reactor.ids.next ∧ l.2 ∈ s.state.settings.listenAddresses ∧
    ∀ c ∈ s.reactor.connections, c.id = l.1 → c.kind = .clientConnect
  entered : ∀ c ∈ s.reactor.connections, c.kind = .clientConnect → ∃ l ∈ s.state.listeners, l.1 = c.id
  bound : ∀ c ∈ s.reactor.connections, ∀ e, c.Holds loan e → ∀ l ∈ s.state.listeners, l.1 = c.id →
    e.kind = .tcpListener ∧ s.reactor.host.address? e = some l.2

variable {loan loan' : Option Loan} {s : Site} {address : Net.Address}

theorem Listed.passes (listed : s.Listed loan) {given : Nat → Endpoint → Prop} {state : State} {reactor : Reactor}
    (passes : Passes given loan loan' s.reactor reactor) (coherent : reactor.Coherent loan') (numbered : reactor.Numbered)
    (lender : ∀ l, loan' = some l → l.id < s.reactor.ids.next) (listeners : state.listeners = s.state.listeners)
    (settings : state.settings = s.state.settings)
    (fits : ∀ id e, given id e → reactor.host.IsOpen e → ∀ l ∈ s.state.listeners, l.1 = id →
      e.kind = .tcpListener ∧ reactor.host.address? e = some l.2) : Site.Listed loan' ⟨state, reactor⟩ := by
  have named : ∀ l ∈ s.state.listeners, ∀ c ∈ reactor.connections, c.id = l.1 → c.kind = .clientConnect := by
    intro l mem c among own
    obtain ⟨below, -, same⟩ := listed.named l mem
    rcases passes.keys c.key (mem_keys.2 ⟨c, among, rfl⟩) with old | ⟨new, -⟩
    · obtain ⟨b, origin, key⟩ := mem_keys.1 old
      exact (congrArg Prod.snd key).symm.trans (same b origin ((congrArg Prod.fst key).trans own))
    · exact absurd (own ▸ new : s.reactor.ids.next ≤ l.1) below.not_ge
  constructor
  · exact coherent
  · exact numbered
  · exact fun l lent => (lender l lent).trans_le passes.next_le
  · exact listeners ▸ listed.addresses
  · exact listeners ▸ listed.ids
  · intro l mem
    obtain ⟨below, wanted, -⟩ := listed.named l (listeners ▸ mem)
    exact ⟨below.trans_le passes.next_le, settings ▸ wanted, named l (listeners ▸ mem)⟩
  · intro c among client
    obtain ⟨b, origin, key⟩ := mem_keys.1
      ((passes.keys c.key (mem_keys.2 ⟨c, among, rfl⟩)).resolve_right fun new => new.2 client)
    obtain ⟨l, mem, own⟩ := listed.entered b origin ((congrArg Prod.snd key).trans client)
    exact ⟨l, listeners ▸ mem, own.trans (congrArg Prod.fst key)⟩
  · intro c among e holds l mem own
    have mem : l ∈ s.state.listeners := listeners ▸ mem
    rcases passes.held c among (named l mem c among own.symm) e holds with new | ⟨b, origin, key, before, still⟩
    · exact fits c.id e new (isOpen_of_holds coherent among holds) l mem own
    · obtain ⟨sort, listens⟩ := listed.bound b origin e before l mem (own.trans (congrArg Prod.fst key).symm)
      exact ⟨sort, still _ listens⟩

theorem Listed.keeps (listed : s.Listed loan) {state : State} {reactor : Reactor}
    (passes : Passes (fun _ _ => False) loan loan s.reactor reactor) (coherent : reactor.Coherent loan)
    (numbered : reactor.Numbered) (listeners : state.listeners = s.state.listeners)
    (settings : state.settings = s.state.settings) : Site.Listed loan ⟨state, reactor⟩ :=
  listed.passes passes coherent numbered listed.lender listeners settings fun _ _ none => none.elim

theorem Listed.grow (listed : s.Listed loan) {host : Host} (grows : Host.Grows s.reactor.host host)
    (houses : Host.Houses s.reactor.host host) : (s.setHost host).Listed loan :=
  listed.keeps (.of_connections le_rfl rfl fun e _ => houses e) (listed.coherent.grow grows)
    ⟨listed.numbered.positive, listed.numbered.distinct, listed.numbered.below⟩ rfl rfl

structure Offers (loan : Option Loan) (s : Site) (e : Endpoint) (address : Net.Address) : Prop where
  loose : s.reactor.Loose loan e
  sort : e.kind = .tcpListener
  listens : s.reactor.host.address? e = some address

theorem Listed.openListener (listed : s.Listed loan) (address : Net.Address) :
    (s.openListener address).2.Listed loan ∧
      ∀ e, (s.openListener address).1 = .ok e → (s.openListener address).2.Offers loan e address := by
  have opens := Host.opens_listenNetwork s.reactor.host address
  obtain ⟨houses, listens⟩ := Host.houses_listenNetwork s.reactor.host address
  unfold Site.openListener
  generalize s.reactor.host.listenNetwork address = outcome at opens houses listens
  obtain ⟨answer, host⟩ := outcome
  refine ⟨listed.grow opens.grows houses, fun e ok => ?_⟩
  cases answer with
  | error error => cases ok
  | ok e' =>
      cases ok
      obtain ⟨isOpen, new, sort⟩ := opens.fresh e rfl
      exact ⟨listed.coherent.loose isOpen new, sort, listens e rfl⟩

theorem Listed.assign (listed : s.Listed loan) {id : Nat} (mem : (id, address) ∈ s.state.listeners) {e : Endpoint}
    (offers : s.Offers loan e address) : (s.react (Reactor.assign id e)).2.Listed loan := by
  obtain ⟨keys, counter⟩ := assign_keys s.reactor id e
  have coherent := (listed.coherent.assign offers.loose id).1
  have retains := (assign_shrinks s.reactor id e).retains
  have custody : Custody (fun i kind e' => kind = .clientConnect → i = id ∧ e' = e) s.reactor (s.reactor.assign id e).2 :=
    .assign s.reactor id e fun _ _ _ _ => ⟨rfl, rfl⟩
  have passes := Passes.of_custody listed.coherent coherent custody retains fun key mem => Or.inl (keys ▸ mem)
  have numbered : Reactor.Widens ∅ s.reactor (s.reactor.assign id e).2 := listed.numbered.assign id e
  refine listed.passes passes coherent numbered.numbered listed.lender rfl rfl ?_
  rintro i e' ⟨rfl, rfl⟩ isOpen l mem' own
  obtain rfl : l = (i, address) := List.inj_on_of_nodup_map listed.ids mem' mem own
  exact ⟨offers.sort, retains.listens listed.coherent.sound offers.listens isOpen⟩

theorem Listed.refused (listed : s.Listed loan) (last : s.reactor.ids.next < idBound) {e : Endpoint}
    (offers : s.Offers loan e address) {error : EventError}
    (failed : (s.reactor.register s.state.filter.allowed .clientConnect (.ofEndpoint e) Flags.input).1 = .error error) :
    ({ s with reactor :=
      (s.reactor.register s.state.filter.allowed .clientConnect (.ofEndpoint e) Flags.input).2 } : Site).Listed loan := by
  have own : ∀ e', (Receiver.ofEndpoint e).endpoint = some e' → s.reactor.Loose loan e' := by
    rintro _ ⟨⟩
    exact offers.loose
  have coherent := (listed.coherent.register own s.state.filter.allowed .clientConnect Flags.input).1
  have numbered := listed.numbered.register last s.state.filter.allowed .clientConnect (.ofEndpoint e) Flags.input
  have same := register_error failed
  have enrols := Enrols.register s.reactor s.state.filter.allowed .clientConnect (.ofEndpoint e) Flags.input
  have retains := (register_shrinks s.reactor s.state.filter.allowed .clientConnect (.ofEndpoint e) Flags.input).retains
  refine listed.keeps (.of_connections enrols.next_le same ?_) coherent numbered.numbered rfl rfl
  rintro e' ⟨c, mem, holds⟩ address listens
  exact retains.listens listed.coherent.sound listens (isOpen_of_holds coherent (same ▸ mem) holds)

theorem Listed.enter (listed : s.Listed loan) {reactor : Reactor} {n : Connection} (coherent : reactor.Coherent loan)
    (numbered : reactor.Numbered) (host : reactor.host = s.reactor.host)
    (connections : reactor.connections = s.reactor.connections ++ [n]) (number : n.id = s.reactor.ids.next)
    (client : n.kind = .clientConnect) (wanted : address ∈ s.state.settings.listenAddresses)
    (missing : ∀ l ∈ s.state.listeners, l.2 ≠ address)
    (binds : ∀ e, n.endpoint? = some e → e.kind = .tcpListener ∧ s.reactor.host.address? e = some address) :
    (({ s with reactor } : Site).addListener n.id address).Listed loan := by
  have members : ∀ c, c ∈ reactor.connections ↔ c ∈ s.reactor.connections ∨ c = n := fun c => by simp [connections]
  have joined := number ▸ numbered.below n ((members n).2 (Or.inr rfl))
  -- Entries that were left behind have old numbers, so none of them stands for the new connection.
  have fresh : ∀ l ∈ s.state.listeners, l.1 ≠ n.id := fun l mem => number ▸ (listed.named l mem).1.ne
  have entries : ∀ l ∈ s.state.listeners ++ [(n.id, address)], l ∈ s.state.listeners ∨ l = (n.id, address) :=
    fun l mem => by simpa using mem
  have kind : ∀ l ∈ s.state.listeners ++ [(n.id, address)], ∀ c ∈ reactor.connections, c.id = l.1 →
      c.kind = .clientConnect := by
    intro l mem c among own
    rcases (members c).1 among with old | rfl
    · rcases entries l mem with before | rfl
      · exact (listed.named l before).2.2 c old own
      · exact absurd (own.trans number) (listed.numbered.below c old).ne
    · exact client
  refine ⟨coherent, numbered, fun l lent => (listed.lender l lent).trans joined, nodup_map_concat listed.addresses missing,
    nodup_map_concat listed.ids fresh, ?_, ?_, ?_⟩
  · intro l mem
    rcases entries l mem with before | rfl
    · obtain ⟨below, known, -⟩ := listed.named l before
      exact ⟨below.trans joined, known, kind l mem⟩
    · exact ⟨number ▸ joined, wanted, kind _ mem⟩
  · intro c mem listener
    rcases (members c).1 mem with old | rfl
    · obtain ⟨l, entry, own⟩ := listed.entered c old listener
      exact ⟨l, List.mem_append_left _ entry, own⟩
    · exact ⟨_, List.mem_append_right _ (List.mem_singleton_self _), rfl⟩
  · intro c mem e holds l entry own
    change e.kind = .tcpListener ∧ reactor.host.address? e = some l.2
    rw [host]
    rcases (members c).1 mem with old | rfl
    · refine listed.bound c old e holds l ((entries l entry).resolve_right ?_) own
      rintro rfl
      exact (listed.numbered.below c old).ne (own.symm.trans number)
    · obtain rfl := (entries l entry).resolve_left fun before => fresh l before own
      refine binds e (holds.resolve_right ?_)
      rintro ⟨lent, eq, same, -⟩
      exact (listed.lender lent eq).ne (same.trans number)

theorem Listed.register (listed : s.Listed loan) (allowed : .clientConnect ∈ s.state.filter.allowed)
    (wanted : address ∈ s.state.settings.listenAddresses) (missing : ∀ l ∈ s.state.listeners, l.2 ≠ address)
    (last : s.reactor.ids.next < idBound) {e : Endpoint} (offers : s.Offers loan e address) {id : Nat}
    (done : (s.reactor.register s.state.filter.allowed .clientConnect (.ofEndpoint e) Flags.input).1 = .ok id) :
    (({ s with reactor :=
      (s.reactor.register s.state.filter.allowed .clientConnect (.ofEndpoint e) Flags.input).2 } : Site).addListener id
        address).Listed loan := by
  have own : ∀ e', (Receiver.ofEndpoint e).endpoint = some e' → s.reactor.Loose loan e' := by
    rintro _ ⟨⟩
    exact offers.loose
  have coherent := (listed.coherent.register own s.state.filter.allowed .clientConnect Flags.input).1
  have numbered := listed.numbered.register last s.state.filter.allowed .clientConnect (.ofEndpoint e) Flags.input
  obtain ⟨ok, host, connections⟩ := register_ok (listed.numbered.fresh last) allowed done
  obtain rfl := Except.ok.inj (ok.symm.trans done)
  refine listed.enter coherent numbered.numbered host connections ?_ rfl wanted missing ?_
  · exact congrArg Prod.fst (take_eq listed.numbered.positive last)
  · rintro _ ⟨⟩
    exact ⟨offers.sort, offers.listens⟩

structure Opened (done : List Net.Address) (s : Site) : Prop where
  present : ∀ l ∈ s.state.listeners, ∃ c ∈ s.reactor.connections, c.id = l.1
  opened : ∀ address ∈ done, ∃ c ∈ s.reactor.connections, (c.id, address) ∈ s.state.listeners ∧ c.fd.isSome

def Adds (s s' : Site) : Prop := s.reactor.ids.next ≤ s'.reactor.ids.next ∧
  ∃ added, s'.state.listeners = s.state.listeners ++ added ∧ ∀ l ∈ added, s.reactor.ids.next ≤ l.1

theorem Adds.trans {s' s'' : Site} (first : s.Adds s') (second : s'.Adds s'') : s.Adds s'' := by
  obtain ⟨later, added, listeners, new⟩ := first
  obtain ⟨later', added', listeners', new'⟩ := second
  refine ⟨later.trans later', added ++ added', by rw [listeners', listeners, List.append_assoc], fun l mem => ?_⟩
  rcases List.mem_append.1 mem with before | after
  · exact new l before
  · exact later.trans (new' l after)

theorem Adds.of_eq {s' : Site} (later : s.reactor.ids.next ≤ s'.reactor.ids.next)
    (same : s'.state.listeners = s.state.listeners) : s.Adds s' :=
  ⟨later, [], by simpa using same, List.forall_mem_nil _⟩

structure Ensures (loan : Option Loan) (address : Net.Address) (s : Site) (outcome : Except DaemonError Unit × Site) :
    Prop where
  listed : outcome.2.Listed loan
  adds : s.Adds outcome.2
  opened : outcome.1 = .ok () → ∀ done, s.Opened done → outcome.2.Opened (address :: done)

theorem assign_ok {r : Reactor} (numbered : r.Numbered) {id : Nat} {e : Endpoint} (ok : (r.assign id e).1 = .ok ()) :
    (r.assign id e).2.connections = r.connections.map fun c => if c.id = id then c.hold (.ofEndpoint e) else c := by
  unfold Reactor.assign at ok ⊢
  dsimp only at ok ⊢
  cases found : r.connection? id with
  | none =>
      rw [found] at ok
      cases ok
  | some c =>
      rw [found] at ok
      dsimp only at ok ⊢
      split <;> rename_i active
      · rw [if_pos active] at ok
        cases ok
      · rw [if_neg active] at ok
        split <;> rename_i held
        · rw [held] at ok
          cases ok
        · exact updateFirst_eq_map numbered.distinct

theorem Opened.assign {done : List Net.Address} (opened : s.Opened done) (numbered : s.reactor.Numbered) {id : Nat}
    (mem : (id, address) ∈ s.state.listeners) {e : Endpoint} (ok : (s.reactor.assign id e).1 = .ok ()) :
    (s.react (Reactor.assign id e)).2.Opened (address :: done) := by
  have connections := assign_ok numbered ok
  have key : ∀ c : Connection, (if c.id = id then c.hold (.ofEndpoint e) else c).id = c.id := fun c => by split <;> rfl
  have image : ∀ c ∈ s.reactor.connections,
      (if c.id = id then c.hold (.ofEndpoint e) else c) ∈ (s.reactor.assign id e).2.connections := fun c mem =>
    connections ▸ List.mem_map_of_mem mem
  constructor
  · intro l entry
    obtain ⟨c, among, own⟩ := opened.present l entry
    exact ⟨_, image c among, (key c).trans own⟩
  · intro a wanted
    rcases List.mem_cons.1 wanted with rfl | before
    · obtain ⟨c, among, own⟩ := opened.present _ mem
      refine ⟨_, image c among, ?_, ?_⟩
      · rw [key, own]
        exact mem
      · rw [if_pos own]
        rfl
    · obtain ⟨c, among, entry, known⟩ := opened.opened a before
      refine ⟨_, image c among, (key c).symm ▸ entry, ?_⟩
      split
      · rfl
      · exact known

theorem Opened.enter {done : List Net.Address} (opened : s.Opened done) {reactor : Reactor} {n : Connection}
    (connections : reactor.connections = s.reactor.connections ++ [n]) (known : n.fd.isSome) :
    (({ s with reactor } : Site).addListener n.id address).Opened (address :: done) := by
  have old : ∀ c ∈ s.reactor.connections, c ∈ reactor.connections := fun c mem => connections ▸ List.mem_append_left _ mem
  have new : n ∈ reactor.connections := connections ▸ List.mem_append_right _ (List.mem_singleton_self _)
  constructor
  · intro l entry
    rcases List.mem_append.1 entry with before | last
    · obtain ⟨c, among, own⟩ := opened.present l before
      exact ⟨c, old c among, own⟩
    · rw [List.mem_singleton.1 last]
      exact ⟨n, new, rfl⟩
  · intro a wanted
    rcases List.mem_cons.1 wanted with rfl | before
    · exact ⟨n, new, List.mem_append_right _ (List.mem_singleton_self _), known⟩
    · obtain ⟨c, among, entry, open'⟩ := opened.opened a before
      exact ⟨c, old c among, List.mem_append_left _ entry, open'⟩

theorem Ensures.failed {outcome : Except DaemonError Unit × Site} (listed : outcome.2.Listed loan)
    (adds : s.Adds outcome.2) {error : DaemonError} (failed : outcome.1 = .error error) :
    Ensures loan address s outcome :=
  ⟨listed, adds, fun ok => by cases ok.symm.trans failed⟩

theorem Ensures.of_setHost {host : Host} {outcome : Except DaemonError Unit × Site}
    (ensures : Ensures loan address (s.setHost host) outcome) : Ensures loan address s outcome :=
  ⟨ensures.listed, ensures.adds, fun ok done prior => ensures.opened ok done ⟨prior.present, prior.opened⟩⟩

theorem Listed.ensure_assign (listed : s.Listed loan) {id : Nat} (mem : (id, address) ∈ s.state.listeners) {e : Endpoint}
    (offers : s.Offers loan e address) : Ensures loan address s (s.react (Reactor.assign id e)) where
  listed := listed.assign mem offers
  adds := .of_eq (congrArg Ids.next (assign_keys s.reactor id e).2).ge rfl
  opened ok _ prior := prior.assign listed.numbered mem (ok_of_mapError ok)

theorem Listed.ensure_open (listed : s.Listed loan) {id : Nat} (mem : (id, address) ∈ s.state.listeners)
    (held : ¬(s.reactor.connection? id).any fun c => c.fd.isNone) : Ensures loan address s (.ok (), s) where
  listed := listed
  adds := .of_eq le_rfl rfl
  opened _ done prior := by
    refine ⟨prior.present, fun a wanted => ?_⟩
    rcases List.mem_cons.1 wanted with rfl | earlier
    · obtain ⟨c, among, own⟩ := prior.present _ mem
      have hit := connection?_of_nodup listed.numbered.distinct among
      rw [own] at hit
      rw [hit] at held
      exact ⟨c, among, own ▸ mem, by simpa [Option.isSome_iff_ne_none] using held⟩
    · exact prior.opened a earlier

theorem Listed.ensure_register (listed : s.Listed loan) (allowed : .clientConnect ∈ s.state.filter.allowed)
    (wanted : address ∈ s.state.settings.listenAddresses) (missing : ∀ l ∈ s.state.listeners, l.2 ≠ address)
    (last : s.reactor.ids.next < idBound) {e : Endpoint} (offers : s.Offers loan e address) {id : Nat}
    (done : (s.reactor.register s.state.filter.allowed .clientConnect (.ofEndpoint e) Flags.input).1 = .ok id) :
    Ensures loan address s (.ok (), ({ s with reactor := (s.reactor.register s.state.filter.allowed .clientConnect
      (.ofEndpoint e) Flags.input).2 } : Site).addListener id address) := by
  have entered := listed.register allowed wanted missing last offers done
  obtain ⟨ok, -, connections⟩ := register_ok (listed.numbered.fresh last) allowed done
  obtain rfl := Except.ok.inj (ok.symm.trans done)
  refine ⟨entered, ⟨?_, [_], rfl, fun l mem => ?_⟩, fun _ _ prior => prior.enter connections rfl⟩
  · exact (Enrols.register s.reactor s.state.filter.allowed .clientConnect (.ofEndpoint e) Flags.input).next_le
  · rw [List.mem_singleton.1 mem]
    exact (congrArg Prod.fst (take_eq listed.numbered.positive last)).ge

theorem Listed.ensureListener (listed : s.Listed loan) (allowed : .clientConnect ∈ s.state.filter.allowed)
    (wanted : address ∈ s.state.settings.listenAddresses)
    (last : (s.ensureListener address).2.reactor.ids.next < idBound) :
    Ensures loan address s (s.ensureListener address) := by
  have before := (ensureListener_later address s).ids_le.trans_lt last
  obtain ⟨opened, offers⟩ := listed.openListener address
  obtain ⟨host, same⟩ : ∃ host, (s.openListener address).2 = s.setHost host := ⟨_, rfl⟩
  clear last
  unfold Site.ensureListener
  generalize s.openListener address = outcome at opened offers same
  obtain ⟨answer, t⟩ := outcome
  dsimp only at opened offers same
  subst same
  cases found : s.state.listeners.find? (fun l => l.2 == address) with
  | some l =>
      obtain ⟨id, a⟩ := l
      have mem := List.mem_of_find?_eq_some found
      obtain rfl : a = address := by simpa using List.find?_some found
      dsimp only
      split
      · cases answer with
        | error error => exact .failed opened (.of_eq le_rfl rfl) rfl
        | ok e => exact .of_setHost (opened.ensure_assign mem (offers e rfl))
      · rename_i held
        exact listed.ensure_open mem held
  | none =>
      have missing : ∀ l ∈ s.state.listeners, l.2 ≠ address := by simpa using found
      cases answer with
      | error error => exact .failed opened (.of_eq le_rfl rfl) rfl
      | ok e =>
          dsimp only
          rw [react_eq]
          cases done : ((s.setHost host).reactor.register (s.setHost host).state.filter.allowed .clientConnect
            (.ofEndpoint e) Flags.input).1 with
          | error error =>
              have later := (Enrols.register (s.setHost host).reactor s.state.filter.allowed .clientConnect (.ofEndpoint e)
                Flags.input).next_le
              exact .failed (opened.refused before (offers e rfl) done) (.of_eq later rfl) rfl
          | ok id => exact .of_setHost (opened.ensure_register allowed wanted missing before (offers e rfl) done)

theorem Opened.of_subset {done done' : List Net.Address} (opened : s.Opened done') (subset : done ⊆ done') :
    s.Opened done :=
  ⟨opened.present, fun address wanted => opened.opened address (subset wanted)⟩

theorem Listed.ensureEach (addresses : List Net.Address) (listed : s.Listed loan)
    (allowed : .clientConnect ∈ s.state.filter.allowed)
    (wanted : ∀ address ∈ addresses, address ∈ s.state.settings.listenAddresses)
    (last : (s.ensureEach addresses).2.reactor.ids.next < idBound) :
    (s.ensureEach addresses).2.Listed loan ∧ s.Adds (s.ensureEach addresses).2 ∧
      ((s.ensureEach addresses).1 = .ok () → ∀ done, s.Opened done → (s.ensureEach addresses).2.Opened (addresses ++ done)) := by
  induction addresses generalizing s with
  | nil => exact ⟨listed, .of_eq le_rfl rfl, fun _ _ opened => opened⟩
  | cons address addresses ih =>
      have ensures := listed.ensureListener allowed (wanted address List.mem_cons_self)
      have state := (ensureListener_extends address s).state
      unfold Site.ensureEach at last ⊢
      split at last <;> rename_i eq <;> rw [eq] at ensures state
      · obtain ⟨after, adds, -⟩ := ensures last
        exact ⟨after, adds, fun ok => by cases ok⟩
      · rename_i t
        obtain ⟨after, adds, opened⟩ := ensures ((ensureEach_later addresses t).ids_le.trans_lt last)
        have same : t.state.filter = s.state.filter ∧ t.state.settings = s.state.settings := by
          rw [state]
          exact ⟨rfl, rfl⟩
        obtain ⟨final, adds', opened'⟩ := ih after (same.1 ▸ allowed)
          (fun a mem => same.2 ▸ wanted a (List.mem_cons_of_mem _ mem)) last
        refine ⟨final, adds.trans adds', fun ok done before => ?_⟩
        exact (opened' ok _ (opened rfl done before)).of_subset List.perm_middle.symm.subset

theorem Listed.forgetListeners (listed : s.Listed loan) : s.forgetListeners.Listed loan where
  coherent := listed.coherent
  numbered := listed.numbered
  lender := listed.lender
  addresses := listed.addresses.sublist (List.filter_sublist.map _)
  ids := listed.ids.sublist (List.filter_sublist.map _)
  named l mem := listed.named l (List.mem_filter.1 mem).1
  entered c mem listener := by
    obtain ⟨l, entry, own⟩ := listed.entered c mem listener
    refine ⟨l, List.mem_filter.2 ⟨entry, ?_⟩, own⟩
    rw [own, connection?_of_nodup listed.numbered.distinct mem]
    rfl
  bound c mem e holds l entry := listed.bound c mem e holds l (List.mem_filter.1 entry).1

theorem forgotten (s : Site) : s.forgetListeners.Opened [] where
  present l mem := by
    obtain ⟨c, found⟩ := Option.isSome_iff_exists.1 (List.mem_filter.1 mem).2
    exact ⟨c, connection?_mem found, (connection?_split found).1⟩
  opened _ wanted := by cases wanted

theorem Listed.ensureListeners (listed : s.Listed loan) (last : s.ensureListeners.2.reactor.ids.next < idBound) :
    s.ensureListeners.2.Listed loan ∧ (.clientConnect ∈ s.state.filter.allowed →
      s.forgetListeners.Adds s.ensureListeners.2 ∧
        (s.ensureListeners.1 = .ok () → s.ensureListeners.2.Opened s.state.settings.listenAddresses)) := by
  unfold Site.ensureListeners at last ⊢
  split
  · rename_i allowed
    rw [if_pos allowed] at last
    obtain ⟨after, adds, opened⟩ := listed.forgetListeners.ensureEach _ allowed (fun _ mem => mem) last
    exact ⟨after, fun _ => ⟨adds, fun ok => (opened ok [] s.forgotten).of_subset (List.subset_append_left _ _)⟩⟩
  · rename_i forbidden
    exact ⟨listed, fun allowed => absurd allowed forbidden⟩

end Site

end TraceGate
