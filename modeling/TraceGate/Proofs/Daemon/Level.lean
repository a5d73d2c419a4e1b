import TraceGate.Daemon.Level
import TraceGate.Proofs.Reactor.Upkeep

namespace TraceGate

open Connection

theorem ok_of_mapError {ε ε' α : Type} {outcome : Except ε α} {message : ε → ε'} {a : α}
    (ok : outcome.mapError message = .ok a) : outcome = .ok a := by
  cases outcome <;> cases ok
  rfl

theorem nodup_map_concat {α β : Type} {f : α → β} {l : List α} {a : α} (nodup : (l.map f).Nodup)
    (fresh : ∀ b ∈ l, f b ≠ f a) : ((l ++ [a]).map f).Nodup := by
  have absent : f a ∉ l.map f := fun known => by
    obtain ⟨b, mem, same⟩ := List.mem_map.1 known
    exact fresh b mem same
  rw [List.map_append, List.map_singleton, ← List.concat_eq_append]
  exact nodup.concat absent

namespace Site

/-- Every client listener is listed for one of the addresses to listen on, and no address is listed twice. -/
structure Ordered (loan : Option Loan) (s : Site) : Prop where
  orderly : s.reactor.Orderly loan
  listed : ∀ c ∈ s.reactor.connections, c.kind = .clientConnect →
    ∃ l ∈ s.state.listeners, l.1 = c.id ∧ l.2 ∈ s.state.settings.listenAddresses
  addresses : (s.state.listeners.map (·.2)).Nodup
  named : ∀ l ∈ s.state.listeners, l.1 < s.reactor.ids.next ∧
    ∀ c ∈ s.reactor.connections, c.id = l.1 → c.kind = .clientConnect

/-- Exactly those connections are active whose kinds the filter allows. -/
structure Governed (loan : Option Loan) (s : Site) : Prop where
  ordered : s.Ordered loan
  active : ∀ c ∈ s.reactor.connections, c.IsActive ↔ c.kind ∈ s.state.filter.allowed
  closed : ∀ c ∈ s.reactor.connections, c.Closed

def Calm (loan : Option Loan) (s : Site) : Prop := ∀ c ∈ s.reactor.connections, c.Away loan

variable {loan : Option Loan} {s s' : Site} {address : Net.Address} {done : List Net.Address}

abbrev Later (s s' : Site) : Prop := Custody (fun _ _ _ => True) s.reactor s'.reactor

structure Smooth (s s' : Site) : Prop where
  last : s'.reactor.ids.next < idBound
  refusals_le : s'.reactor.host.refusals ≤ s.reactor.host.refusals

variable {s'' : Site}

theorem Smooth.left (smooth : s.Smooth s'') (later : s'.Later s'') : s.Smooth s' :=
  ⟨later.ids_le.trans_lt smooth.last, later.refusals_le.trans smooth.refusals_le⟩

theorem Smooth.right (smooth : s.Smooth s'') (later : s.Later s') : s'.Smooth s'' :=
  ⟨smooth.last, smooth.refusals_le.trans later.refusals_le⟩

structure Listening (loan : Option Loan) (done : List Net.Address) (s : Site) : Prop where
  ordered : s.Ordered loan
  calm : s.Calm loan
  allowed : .clientConnect ∈ s.state.filter.allowed
  present : ∀ l ∈ s.state.listeners, ∃ c ∈ s.reactor.connections, c.id = l.1
  served : ∀ l ∈ s.state.listeners, l.2 ∈ done → ∀ c ∈ s.reactor.connections, c.id = l.1 → c.fd.isSome

theorem openListener_ok (ordered : s.Ordered loan) (smooth : s.Smooth (s.openListener address).2) :
    ∃ e host, s.openListener address = (.ok e, s.setHost host) ∧ Host.Grows s.reactor.host host ∧
      (s.setHost host).reactor.Loose loan e := by
  have opens := Host.opens_listenNetwork s.reactor.host address
  obtain ⟨e, ok⟩ := Host.listenNetwork_ok (le_antisymm smooth.refusals_le opens.grows.refusals_le)
  obtain ⟨isOpen, new, -⟩ := opens.fresh e ok
  refine ⟨e, (s.reactor.host.listenNetwork address).2, ?_, opens.grows, ?_⟩
  · have eq : s.openListener address = ((s.reactor.host.listenNetwork address).1.mapError
        (.socket (address.withPort s.state.settings.port)), s.setHost (s.reactor.host.listenNetwork address).2) := rfl
    rw [eq, ok]
    rfl
  · exact ordered.orderly.coherent.loose isOpen new

theorem Ordered.grow (ordered : s.Ordered loan) {host : Host} (grows : Host.Grows s.reactor.host host) :
    (s.setHost host).Ordered loan where
  orderly := ordered.orderly.grow grows
  listed := ordered.listed
  addresses := ordered.addresses
  named := ordered.named

theorem Ordered.of_map (ordered : s.Ordered loan) {reactor : Reactor} {loan' : Option Loan}
    (orderly : reactor.Orderly loan') (ids : reactor.ids = s.reactor.ids)
    {f : Connection → Connection} (key : ∀ c, (f c).id = c.id) (kind : ∀ c, (f c).kind = c.kind)
    (connections : reactor.connections = s.reactor.connections.map f) :
    ({ s with reactor } : Site).Ordered loan' where
  orderly := orderly
  listed c mem listener := by
    change c ∈ reactor.connections at mem
    rw [connections] at mem
    obtain ⟨d, origin, rfl⟩ := List.mem_map.1 mem
    rw [kind] at listener
    rw [key]
    exact ordered.listed d origin listener
  addresses := ordered.addresses
  named l mem := by
    refine ⟨ids ▸ (ordered.named l mem).1, fun c mem' own => ?_⟩
    change c ∈ reactor.connections at mem'
    rw [connections] at mem'
    obtain ⟨d, origin, rfl⟩ := List.mem_map.1 mem'
    rw [kind]
    exact (ordered.named l mem).2 d origin (key d ▸ own)

theorem Ordered.join (ordered : s.Ordered loan) {reactor : Reactor} {n : Connection}
    {added : List (Nat × Net.Address)} (orderly : reactor.Orderly loan)
    (later : Custody (fun _ _ _ => True) s.reactor reactor) (number : n.id = s.reactor.ids.next)
    (members : ∀ c, c ∈ reactor.connections ↔ c ∈ s.reactor.connections ∨ c = n)
    (listed : n.kind = .clientConnect → ∃ l ∈ added, l.1 = n.id ∧ l.2 ∈ s.state.settings.listenAddresses)
    (named : ∀ l ∈ added, l.1 = n.id ∧ n.kind = .clientConnect)
    (addresses : ((s.state.listeners ++ added).map (·.2)).Nodup) :
    (⟨{ s.state with listeners := s.state.listeners ++ added }, reactor⟩ : Site).Ordered loan where
  orderly := orderly
  listed c mem listener := by
    rcases (members c).1 mem with old | rfl
    · obtain ⟨l, mem, own⟩ := ordered.listed c old listener
      exact ⟨l, List.mem_append_left _ mem, own⟩
    · obtain ⟨l, mem, own⟩ := listed listener
      exact ⟨l, List.mem_append_right _ mem, own⟩
  addresses := addresses
  named l mem := by
    have counted : n.id < reactor.ids.next := (orderly.regular n ((members n).2 (Or.inr rfl))).below
    rcases List.mem_append.1 mem with old | new
    · obtain ⟨below, kept⟩ := ordered.named l old
      refine ⟨below.trans_le later.ids_le, fun c mem own => ?_⟩
      rcases (members c).1 mem with before | rfl
      · exact kept c before own
      · exact absurd (own.symm.trans number) below.ne
    · obtain ⟨own, client⟩ := named l new
      refine ⟨own ▸ counted, fun c mem same => ?_⟩
      rcases (members c).1 mem with before | rfl
      · exact absurd (same.trans (own.trans number)) (ordered.orderly.regular c before).below.ne
      · exact client

theorem react_eq {α : Type} (s : Site) (f : Reactor → Except EventError α × Reactor) :
    s.react f = ((f s.reactor).1.mapError .event, { s with reactor := (f s.reactor).2 }) := rfl

theorem react_later {α : Type} (s : Site) {f : Reactor → Except EventError α × Reactor}
    (custody : Custody (fun _ _ _ => True) s.reactor (f s.reactor).2) : s.Later (s.react f).2 := custody

theorem openListener_later (address : Net.Address) (s : Site) : s.Later (s.openListener address).2 :=
  Custody.of_grows (Host.opens_listenNetwork s.reactor.host address).grows

theorem ensureListener_later (address : Net.Address) (s : Site) : s.Later (s.ensureListener address).2 := by
  have opened := openListener_later address s
  unfold Site.ensureListener
  split
  · split
    · split <;> rename_i eq <;> rw [eq] at opened
      · exact opened
      · exact opened.trans (react_later _ (Custody.assign _ _ _ fun _ _ _ => trivial))
    · exact Custody.refl _
  · split <;> rename_i eq <;> rw [eq] at opened
    · exact opened
    · rename_i e t
      have opened : s.Later t := opened
      have registered : s.Later (t.react (Reactor.register t.state.filter.allowed .clientConnect (.ofEndpoint e)
          Flags.input)).2 := opened.trans (react_later t (Custody.register _ _ _ _ _ fun _ _ => trivial))
      split <;> rename_i eq <;> rw [eq] at registered <;> exact registered

theorem Listening.assign (listening : s.Listening loan done) {l : Nat × Net.Address} (mem : l ∈ s.state.listeners)
    {c : Connection} (origin : c ∈ s.reactor.connections) (own : c.id = l.1) (vacant : c.fd = none) {e : Endpoint}
    {host : Host} (grows : Host.Grows s.reactor.host host) (loose : (s.setHost host).reactor.Loose loan e) :
    ((s.setHost host).react (Reactor.assign l.1 e)).1 = .ok () ∧
      ((s.setHost host).react (Reactor.assign l.1 e)).2.Listening loan (l.2 :: done) := by
  have ordered := listening.ordered.grow grows
  have listener := (ordered.named l mem).2 c origin own
  obtain ⟨ok, orderly, ids, connections⟩ := ordered.orderly.assign origin listener vacant (listening.calm c origin) loose
  have custody : Custody (fun _ _ _ => True) (s.setHost host).reactor ((s.setHost host).reactor.assign c.id e).2 :=
    Custody.assign _ _ _ fun _ _ _ => trivial
  rw [own] at ok orderly ids connections custody
  have key : ∀ d : Connection, (if d.id = l.1 then d.hold (.ofEndpoint e) else d).id = d.id := fun d => by
    split <;> rfl
  have kind : ∀ d : Connection, (if d.id = l.1 then d.hold (.ofEndpoint e) else d).kind = d.kind := fun d => by
    split <;> rfl
  have assigned : ∀ d ∈ ((s.setHost host).reactor.assign l.1 e).2.connections,
      ∃ b ∈ s.reactor.connections, d = if b.id = l.1 then b.hold (.ofEndpoint e) else b := by
    intro d mem
    rw [connections] at mem
    obtain ⟨b, origin, eq⟩ := List.mem_map.1 mem
    exact ⟨b, origin, eq.symm⟩
  refine ⟨?_, ordered.of_map orderly ids key kind connections, ?_, listening.allowed, ?_, ?_⟩
  · change ((s.setHost host).reactor.assign l.1 e).1.mapError DaemonError.event = _
    rw [ok]
    rfl
  · intro d mem
    obtain ⟨b, origin, rfl⟩ := assigned d mem
    intro k lent same
    rw [kind]
    exact listening.calm b origin k lent (key b ▸ same)
  · intro k mem
    obtain ⟨b, origin, same⟩ := listening.present k mem
    refine ⟨if b.id = l.1 then b.hold (.ofEndpoint e) else b, ?_, (key b).trans same⟩
    change _ ∈ ((s.setHost host).reactor.assign l.1 e).2.connections
    rw [connections]
    exact List.mem_map_of_mem origin
  · intro k mem' within d memD same
    obtain ⟨b, origin, rfl⟩ := assigned d memD
    split
    · rfl
    · rename_i other
      rw [if_neg other] at same
      rcases List.mem_cons.1 within with here | before
      · rw [List.inj_on_of_nodup_map listening.ordered.addresses mem' mem here] at same
        exact absurd same other
      · exact listening.served k mem' before b origin same

theorem Listening.register (listening : s.Listening loan done) (wanted : address ∈ s.state.settings.listenAddresses)
    (missing : ∀ l ∈ s.state.listeners, l.2 ≠ address) (last : s.reactor.ids.next < idBound) {e : Endpoint}
    {host : Host} (grows : Host.Grows s.reactor.host host) (loose : (s.setHost host).reactor.Loose loan e) :
    ∃ id t, (s.setHost host).react (Reactor.register s.state.filter.allowed .clientConnect (.ofEndpoint e) Flags.input) =
      (.ok id, t) ∧ (t.addListener id address).Listening loan (address :: done) := by
  have ordered := listening.ordered.grow grows
  have registers := ordered.orderly.register last loose (fun _ => rfl) s.state.filter.allowed Flags.input
  have custody : Custody (fun _ _ _ => True) (s.setHost host).reactor ((s.setHost host).reactor.register
      s.state.filter.allowed .clientConnect (.ofEndpoint e) Flags.input).2 := Custody.register _ _ _ _ _ fun _ _ => trivial
  generalize outcome : (s.setHost host).reactor.register s.state.filter.allowed .clientConnect (.ofEndpoint e)
    Flags.input = result at registers custody
  obtain ⟨answer, reactor⟩ := result
  obtain ⟨ok, orderly, connections⟩ := registers
  dsimp only at ok orderly connections custody
  refine ⟨s.reactor.ids.next, { s.setHost host with reactor }, ?_, ?_⟩
  · rw [react_eq, outcome, ok]
    rfl
  obtain ⟨n, number, kind, known, connections⟩ : ∃ n : Connection, n.id = s.reactor.ids.next ∧
      n.kind = .clientConnect ∧ n.fd.isSome ∧ reactor.connections = s.reactor.connections ++ [n] := by
    refine ⟨_, follow_id, follow_kind, ?_, connections⟩
    rw [follow_fd fun _ => listening.allowed]
    rfl
  have members : ∀ c, c ∈ reactor.connections ↔ c ∈ s.reactor.connections ∨ c = n := fun c => by simp [connections]
  -- The number is new, so the entry that is added stands for the connection that is added, and for no other.
  have fresh : ∀ c ∈ s.reactor.connections, c.id ≠ s.reactor.ids.next := fun c mem =>
    (ordered.orderly.regular c mem).below.ne
  have listeners : ∀ l, l ∈ s.state.listeners ++ [(s.reactor.ids.next, address)] →
      l ∈ s.state.listeners ∨ l = (s.reactor.ids.next, address) := fun l mem => by simpa using mem
  have addresses : ((s.state.listeners ++ [(s.reactor.ids.next, address)]).map (·.2)).Nodup :=
    nodup_map_concat ordered.addresses missing
  refine ⟨ordered.join orderly custody number members
    (fun _ => ⟨_, List.mem_singleton_self _, number.symm, wanted⟩) ?_ addresses, ?_, listening.allowed, ?_, ?_⟩
  · intro l mem
    rw [List.mem_singleton.1 mem]
    exact ⟨number.symm, kind⟩
  · intro c mem
    rcases (members c).1 mem with old | rfl
    · exact listening.calm c old
    · intro l lent own
      exact absurd (number ▸ own) (ordered.orderly.lender l lent).ne'
  · intro l mem
    rcases listeners l mem with old | rfl
    · obtain ⟨c, mem, own⟩ := listening.present l old
      exact ⟨c, (members c).2 (Or.inl mem), own⟩
    · exact ⟨n, (members n).2 (Or.inr rfl), number⟩
  · intro l mem within c memC own
    rcases (members c).1 memC with old | rfl
    · rcases listeners l mem with before | rfl
      · rcases List.mem_cons.1 within with here | earlier
        · exact absurd here (missing l before)
        · exact listening.served l before earlier c old own
      · exact absurd own (fresh c old)
    · exact known

theorem Listening.ensureListener (listening : s.Listening loan done)
    (wanted : address ∈ s.state.settings.listenAddresses) (smooth : s.Smooth (s.ensureListener address).2) :
    (s.ensureListener address).1 = .ok () ∧ (s.ensureListener address).2.Listening loan (address :: done) ∧
      (s.ensureListener address).2.state.settings = s.state.settings := by
  have before := (smooth.left (ensureListener_later address s)).last
  unfold Site.ensureListener at smooth ⊢
  cases found : s.state.listeners.find? (fun l => l.2 == address) with
  | some l =>
      obtain ⟨id, a⟩ := l
      have mem := List.mem_of_find?_eq_some found
      obtain rfl : a = address := by simpa using List.find?_some found
      obtain ⟨c, origin, own⟩ := listening.present _ mem
      have known := listening.ordered.orderly.connection?_eq origin
      rw [own] at known
      rw [found] at smooth
      dsimp only at smooth ⊢
      rw [known, Option.any_some] at smooth ⊢
      split
      · rename_i vacant
        rw [if_pos vacant] at smooth
        obtain ⟨e, host, opened, grows, loose⟩ := openListener_ok listening.ordered (smooth.left (by
          split <;> rename_i eq <;> rw [eq]
          · exact Custody.refl _
          · exact react_later _ (Custody.assign _ _ _ fun _ _ _ => trivial)))
        rw [opened]
        dsimp only
        obtain ⟨ok, after⟩ := listening.assign mem origin own (by simpa using vacant) grows loose
        exact ⟨ok, after, rfl⟩
      · rename_i open'
        refine ⟨rfl, ⟨listening.ordered, listening.calm, listening.allowed, listening.present, ?_⟩, rfl⟩
        intro l mem' within d memD same
        -- No address is listed twice, so the entry that is at the address is the one that was found.
        rcases List.mem_cons.1 within with here | earlier
        · have twin := List.inj_on_of_nodup_map listening.ordered.addresses mem' mem here
          rw [twin, ← own] at same
          rw [listening.ordered.orderly.eq_of_id memD origin same]
          simpa [Option.isSome_iff_ne_none] using open'
        · exact listening.served l mem' earlier d memD same
  | none =>
      have missing : ∀ l ∈ s.state.listeners, l.2 ≠ address := by simpa using found
      rw [found] at smooth
      obtain ⟨e, host, opened, grows, loose⟩ := openListener_ok listening.ordered (smooth.left (by
        dsimp only
        split <;> rename_i eq <;> rw [eq]
        · exact Custody.refl _
        · rename_i e t
          have registered := react_later t (Custody.register t.reactor t.state.filter.allowed .clientConnect
            (.ofEndpoint e) Flags.input fun _ _ => trivial)
          split <;> rename_i eq <;> rw [eq] at registered <;> exact registered))
      obtain ⟨id, t, registered, after⟩ := listening.register wanted missing before grows loose
      dsimp only
      rw [opened]
      dsimp only
      have registered : (s.setHost host).react (Reactor.register (s.setHost host).state.filter.allowed .clientConnect
        (.ofEndpoint e) Flags.input) = (.ok id, t) := registered
      rw [registered]
      refine ⟨rfl, after, ?_⟩
      have same := congrArg (fun outcome => outcome.2.state.settings) registered
      exact same.symm

theorem ensureEach_later (addresses : List Net.Address) (s : Site) : s.Later (s.ensureEach addresses).2 := by
  induction addresses generalizing s with
  | nil => exact Custody.refl _
  | cons address rest ih =>
      have first := ensureListener_later address s
      unfold Site.ensureEach
      split <;> rename_i eq <;> rw [eq] at first
      · exact first
      · exact first.trans (ih _)

theorem Listening.ensureEach (addresses : List Net.Address) (listening : s.Listening loan done)
    (wanted : ∀ address ∈ addresses, address ∈ s.state.settings.listenAddresses)
    (smooth : s.Smooth (s.ensureEach addresses).2) :
    (s.ensureEach addresses).1 = .ok () ∧ (s.ensureEach addresses).2.state.settings = s.state.settings ∧
      ∃ all, (∀ address ∈ addresses ++ done, address ∈ all) ∧ (s.ensureEach addresses).2.Listening loan all := by
  induction addresses generalizing s done with
  | nil => exact ⟨rfl, rfl, done, fun _ mem => mem, listening⟩
  | cons address rest ih =>
      have first := ensureListener_later address s
      have later : (s.ensureListener address).2.Later (s.ensureEach (address :: rest)).2 := by
        rw [Site.ensureEach]
        split <;> rename_i eq <;> rw [eq]
        · exact Custody.refl _
        · exact ensureEach_later rest _
      obtain ⟨ok, after, settings⟩ := listening.ensureListener (wanted address List.mem_cons_self) (smooth.left later)
      unfold Site.ensureEach at smooth ⊢
      split <;> rename_i eq <;> rw [eq] at ok after settings first
      · cases ok
      · rw [eq] at smooth
        obtain ⟨ok, settings', all, cover, final⟩ := ih after
          (fun a mem => settings ▸ wanted a (List.mem_cons_of_mem _ mem)) (smooth.right first)
        refine ⟨ok, settings'.trans settings, all, fun a mem => cover a ?_, final⟩
        simp only [List.cons_append, List.mem_cons, List.mem_append] at mem ⊢
        tauto

theorem Ordered.forgetListeners (ordered : s.Ordered loan) : s.forgetListeners.Ordered loan where
  orderly := ordered.orderly
  listed c mem listener := by
    obtain ⟨l, listed, own, wanted⟩ := ordered.listed c mem listener
    refine ⟨l, List.mem_filter.2 ⟨listed, ?_⟩, own, wanted⟩
    rw [own, ordered.orderly.connection?_eq mem]
    rfl
  addresses := ordered.addresses.sublist (List.filter_sublist.map _)
  named l mem := ordered.named l (List.mem_filter.1 mem).1

theorem Ordered.forgotten (ordered : s.Ordered loan) (calm : s.Calm loan)
    (allowed : .clientConnect ∈ s.state.filter.allowed) : s.forgetListeners.Listening loan [] where
  ordered := ordered.forgetListeners
  calm := calm
  allowed := allowed
  present l mem := by
    obtain ⟨c, found⟩ := Option.isSome_iff_exists.1 (List.mem_filter.1 mem).2
    exact ⟨c, Reactor.connection?_mem found, (Reactor.connection?_split found).1⟩
  served _ _ within := by cases within

structure Prepared (loan : Option Loan) (s : Site) : Prop where
  ordered : s.Ordered loan
  calm : s.Calm loan
  ready : .clientConnect ∈ s.state.filter.allowed → ∀ c ∈ s.reactor.connections, c.kind = .clientConnect → c.fd.isSome
  closed : .clientConnect ∉ s.state.filter.allowed → ∀ c ∈ s.reactor.connections, c.Closed

theorem ensureListeners_later (s : Site) : s.Later s.ensureListeners.2 := by
  unfold Site.ensureListeners
  split
  · exact ensureEach_later _ s.forgetListeners
  · exact Custody.refl _

theorem Ordered.ensureListeners (ordered : s.Ordered loan) (calm : s.Calm loan)
    (closed : ∀ c ∈ s.reactor.connections, c.Closed) (smooth : s.Smooth s.ensureListeners.2) :
    s.ensureListeners.1 = .ok () ∧ s.ensureListeners.2.Prepared loan := by
  unfold Site.ensureListeners at smooth ⊢
  split
  · rename_i allowed
    rw [if_pos allowed] at smooth
    obtain ⟨ok, settings, all, cover, listening⟩ := (ordered.forgotten calm allowed).ensureEach _ (fun _ mem => mem)
      ⟨smooth.last, smooth.refusals_le⟩
    refine ⟨ok, listening.ordered, listening.calm, fun _ c mem listener => ?_, fun forbidden => ?_⟩
    · obtain ⟨l, listed, own, wanted⟩ := listening.ordered.listed c mem listener
      rw [settings] at wanted
      exact listening.served l listed (cover l.2 (List.mem_append_left _ wanted)) c mem own.symm
    · exact absurd listening.allowed forbidden
  · rename_i forbidden
    exact ⟨rfl, ordered, calm, fun allowed => absurd allowed forbidden, fun _ => closed⟩

theorem Prepared.reconcile (prepared : s.Prepared loan) :
    ∃ t, s.react (Reactor.reconcile s.state.filter.allowed .all) = (.ok (), t) ∧ t.Governed loan ∧ t.Calm loan := by
  have ready : ∀ c ∈ s.reactor.connections, c.kind ∈ s.state.filter.allowed → c.fd.isSome := by
    intro c mem allowed
    by_cases listener : c.kind = .clientConnect
    · exact prepared.ready (listener ▸ allowed) c mem listener
    · exact (prepared.ordered.orderly.regular c mem).known listener
  obtain ⟨ok, orderly, ids, -, connections⟩ := prepared.ordered.orderly.reconcile prepared.calm ready
  refine ⟨{ s with reactor := (s.reactor.reconcile s.state.filter.allowed .all).2 }, ?_, ?_⟩
  · rw [react_eq, ok]
    rfl
  have followed : ∀ c ∈ (s.reactor.reconcile s.state.filter.allowed .all).2.connections,
      ∃ d ∈ s.reactor.connections, c = d.follow s.state.filter.allowed := by
    intro c mem
    rw [connections] at mem
    obtain ⟨d, origin, eq⟩ := List.mem_map.1 mem
    exact ⟨d, origin, eq.symm⟩
  refine ⟨⟨prepared.ordered.of_map orderly ids (fun _ => follow_id) (fun _ => follow_kind) connections, ?_, ?_⟩, ?_⟩
  · intro c mem
    obtain ⟨d, -, rfl⟩ := followed c mem
    rw [follow_kind]
    exact follow_isActive
  · intro c mem
    obtain ⟨d, origin, rfl⟩ := followed c mem
    apply closed_follow
    intro forbidden listener
    exact prepared.closed (listener ▸ forbidden) d origin listener
  · intro c mem l lent own
    obtain ⟨d, origin, rfl⟩ := followed c mem
    rw [follow_kind]
    exact prepared.calm d origin l lent (follow_id ▸ own)

theorem applyLevel_later (level : Nat) (s : Site) : s.Later (s.applyLevel level).2 := by
  unfold Site.applyLevel
  split
  · exact Custody.refl _
  · rename_i filter _
    have first : s.Later (s.setFilter filter).ensureListeners.2 := ensureListeners_later (s.setFilter filter)
    split <;> rename_i eq <;> rw [eq] at first
    · exact first
    · rename_i t
      have first : s.Later t := first
      have second : s.Later (t.react (Reactor.reconcile t.state.filter.allowed .all)).2 :=
        first.trans (react_later t (Custody.checkAll _ _ _))
      split <;> rename_i eq <;> rw [eq] at second <;> exact second

theorem Governed.applyLevel (governed : s.Governed loan) (calm : s.Calm loan) (level : Nat)
    (smooth : s.Smooth (s.applyLevel level).2) :
    (s.applyLevel level).2.Governed loan ∧ (s.applyLevel level).2.Calm loan := by
  unfold Site.applyLevel at smooth ⊢
  split
  · exact ⟨governed, calm⟩
  · rename_i change filter accepted
    have ordered : (s.setFilter filter).Ordered loan :=
      ⟨governed.ordered.orderly, governed.ordered.listed, governed.ordered.addresses, governed.ordered.named⟩
    rw [accepted] at smooth
    have smooth : (s.setFilter filter).Smooth _ := ⟨smooth.last, smooth.refusals_le⟩
    obtain ⟨ok, prepared⟩ := ordered.ensureListeners calm governed.closed (smooth.left (by
      dsimp only
      split <;> rename_i eq <;> rw [eq]
      · exact Custody.refl _
      · rename_i t
        have second : t.Later (t.react (Reactor.reconcile t.state.filter.allowed .all)).2 :=
          react_later t (Custody.checkAll _ _ _)
        split <;> rename_i eq <;> rw [eq] at second <;> exact second))
    split <;> rename_i eq <;> rw [eq] at ok prepared
    · cases ok
    · obtain ⟨t, reconciled, governed⟩ := prepared.reconcile
      rw [reconciled]
      exact governed

end Site

end TraceGate
