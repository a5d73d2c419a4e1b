import TraceGate.Proofs.Daemon.Level

namespace TraceGate

open Connection

namespace Reactor

variable {policy : KindSet} {r r' r'' : Reactor} {id : Nat} {outcome : Except EventError Unit × Reactor}

/-- No two connections have one number, and the counter is past all of them. -/
structure Numbered (r : Reactor) : Prop where
  positive : 0 < r.ids.next
  distinct : (r.connections.map (·.id)).Nodup
  below : ∀ c ∈ r.connections, c.id < r.ids.next

theorem Numbered.eq_of_id (numbered : r.Numbered) {c d : Connection} (hc : c ∈ r.connections) (hd : d ∈ r.connections)
    (same : c.id = d.id) : c = d :=
  List.inj_on_of_nodup_map numbered.distinct hc hd same

theorem Numbered.of_ids (numbered : r.Numbered) (counter : r'.ids = r.ids)
    (ids : r'.connections.map (·.id) = r.connections.map (·.id)) : r'.Numbered := by
  refine ⟨counter ▸ numbered.positive, ids ▸ numbered.distinct, fun c mem => ?_⟩
  have mem := List.mem_map_of_mem (f := Connection.id) mem
  rw [ids] at mem
  obtain ⟨b, origin, same⟩ := List.mem_map.1 mem
  rw [← same, counter]
  exact numbered.below b origin

def active (r : Reactor) : List (Nat × Kind) := (r.connections.filter fun c => c.IsActive).map fun c => (c.id, c.kind)

theorem mem_active {p : Nat × Kind} : p ∈ r.active ↔ ∃ c ∈ r.connections, c.IsActive ∧ (c.id, c.kind) = p := by
  simp [active, and_assoc]

theorem active_map {f : Connection → Connection}
    (keeps : ∀ c ∈ r.connections, (f c).id = c.id ∧ (f c).kind = c.kind ∧ ((f c).IsActive ↔ c.IsActive))
    (connections : r'.connections = r.connections.map f) : r'.active = r.active := by
  have same : r.connections.filter ((fun c => decide c.IsActive) ∘ f) = r.connections.filter fun c => c.IsActive :=
    List.filter_congr fun c mem => decide_eq_decide.2 (keeps c mem).2.2
  rw [active, active, connections, List.filter_map, List.map_map, same]
  refine List.map_congr_left fun c mem => ?_
  obtain ⟨key, kind, -⟩ := keeps c (List.mem_of_mem_filter mem)
  exact Prod.ext key kind

def Checked (policy : KindSet) (r r' : Reactor) : Prop := ∀ p ∈ r'.active, p.2 ∈ policy ∨ p ∈ r.active

theorem Checked.of_eq (same : r'.active = r.active) : Checked policy r r' := fun _ mem => Or.inr (same ▸ mem)

theorem Checked.trans (first : Checked policy r r') (second : Checked policy r' r'') : Checked policy r r'' := by
  intro p mem
  rcases second p mem with allowed | before
  · exact Or.inl allowed
  · exact first p before

def Alters (policy : KindSet) (id : Nat) (r : Reactor) (outcome : Except EventError Unit × Reactor) : Prop :=
  ∃ f : Connection → Connection,
    outcome.2.connections = r.connections.map (fun c => if c.id = id then f c else c) ∧
    ∀ c ∈ r.connections, c.id = id → (f c).id = c.id ∧ (f c).kind = c.kind ∧
      ((f c).IsActive → c.IsActive ∨ c.kind ∈ policy) ∧ (outcome.1 = .ok () → (f c).IsActive → c.kind ∈ policy)

theorem Alters.of_same {answer : Except EventError Unit}
    (fine : answer = .ok () → ∀ c ∈ r.connections, c.id = id → c.IsActive → c.kind ∈ policy) :
    Alters policy id r (answer, r) := by
  refine ⟨fun c => c, by simp, fun c mem own => ⟨rfl, rfl, Or.inl, fun ok => fine ok c mem own⟩⟩

theorem Numbered.checkActivate (numbered : r.Numbered) (id : Nat) (policy : KindSet) :
    Alters policy id r (r.checkActivate id policy .activate) := by
  unfold Reactor.checkActivate
  split
  · exact .of_same (by rintro ⟨⟩)
  · rename_i c found
    obtain ⟨own, -⟩ := connection?_split found
    have unique : ∀ d ∈ r.connections, d.id = id → d = c := fun d mem same =>
      numbered.eq_of_id mem (connection?_mem found) (same.trans own.symm)
    simp only [and_true, decide_eq_true_eq]
    split
    · split
      · rename_i wanted
        exact .of_same fun _ d mem same _ => unique d mem same ▸ wanted
      · obtain ⟨f, keeps, connections⟩ := deactivate_connections r c
        rw [updateFirst_eq_map numbered.distinct, own] at connections
        refine ⟨f, connections, fun d _ _ => ?_⟩
        obtain ⟨key, kind, idle⟩ := keeps d
        exact ⟨key, kind, fun active => absurd active idle, fun _ active => absurd active idle⟩
    · rename_i inactive
      have idle : ∀ d ∈ r.connections, d.id = id → ¬d.IsActive := fun d mem same => by
        rw [unique d mem same, IsActive, inactive]
        decide
      have quiet : ∀ answer, Alters policy id r (answer, r) := fun answer =>
        .of_same fun _ d mem same active => absurd active (idle d mem same)
      split
      · rename_i wanted
        unfold Reactor.activate
        split
        · exact quiet _
        · split
          · exact quiet _
          · refine ⟨Connection.start, ?_, fun d mem same => ?_⟩
            · rw [Reactor.update, updateFirst_eq_map numbered.distinct, own]
            · rw [unique d mem same]
              exact ⟨rfl, rfl, fun _ => Or.inr wanted, fun _ _ => wanted⟩
      · exact quiet _
    · exact .of_same (by rintro ⟨⟩)

theorem Alters.numbered (alters : Alters policy id r outcome) (numbered : r.Numbered)
    (counter : outcome.2.ids = r.ids) : outcome.2.Numbered := by
  obtain ⟨f, connections, keeps⟩ := alters
  refine numbered.of_ids counter ?_
  rw [connections, List.map_map]
  refine List.map_congr_left fun c mem => ?_
  dsimp only [Function.comp]
  split
  · rename_i own
    exact (keeps c mem own).1
  · rfl

theorem Alters.active_cases (alters : Alters policy id r outcome) {p : Nat × Kind} (mem : p ∈ outcome.2.active) :
    (p ∈ r.active ∨ p.2 ∈ policy) ∧ (p.1 = id ∧ (outcome.1 = .ok () → p.2 ∈ policy) ∨ p.1 ≠ id ∧ p ∈ r.active) := by
  obtain ⟨f, connections, keeps⟩ := alters
  obtain ⟨c, altered, active, rfl⟩ := mem_active.1 mem
  rw [connections] at altered
  obtain ⟨b, origin, rfl⟩ := List.mem_map.1 altered
  split at active
  · rename_i own
    obtain ⟨key, kind, before, allowed⟩ := keeps b origin own
    rw [if_pos own, kind, key]
    refine ⟨(before active).imp_left fun active => mem_active.2 ⟨b, origin, active, rfl⟩, Or.inl ⟨own, fun ok => ?_⟩⟩
    exact allowed ok active
  · rename_i other
    have mem := mem_active.2 ⟨b, origin, active, rfl⟩
    rw [if_neg other]
    exact ⟨Or.inl mem, Or.inr ⟨other, mem⟩⟩

theorem Alters.checked (alters : Alters policy id r outcome) : Checked policy r outcome.2 :=
  fun _ mem => (alters.active_cases mem).1.symm

theorem Numbered.checkAll (numbered : r.Numbered) (policy : KindSet) (ids : List Nat) :
    Checked policy r (r.checkAll policy ids).2 ∧ ((r.checkAll policy ids).1 = .ok () →
      (∀ p ∈ r.active, p.1 ∈ ids ∨ p.2 ∈ policy) → ∀ p ∈ (r.checkAll policy ids).2.active, p.2 ∈ policy) := by
  induction ids generalizing r with
  | nil => exact ⟨.of_eq rfl, fun _ allowed p mem => (allowed p mem).resolve_left List.not_mem_nil⟩
  | cons id ids ih =>
      have alters := numbered.checkActivate id policy
      have same := checkActivate_ids r id policy .activate
      unfold Reactor.checkAll
      split <;> rename_i eq <;> rw [eq] at alters same
      · obtain ⟨checked, fine⟩ := ih (alters.numbered numbered same)
        refine ⟨alters.checked.trans checked, fun ok covered => fine ok fun p mem => ?_⟩
        rcases (alters.active_cases mem).2 with ⟨-, allowed⟩ | ⟨other, before⟩
        · exact Or.inr (allowed rfl)
        · exact (covered p before).imp_left fun mem => (List.mem_cons.1 mem).resolve_left other
      · exact ⟨alters.checked, by rintro ⟨⟩⟩

theorem Numbered.checkAll_numbered (numbered : r.Numbered) (policy : KindSet) (ids : List Nat) :
    (r.checkAll policy ids).2.Numbered := by
  induction ids generalizing r with
  | nil => exact numbered
  | cons id ids ih =>
      have next := (numbered.checkActivate id policy).numbered numbered (checkActivate_ids r id policy .activate)
      unfold Reactor.checkAll
      split <;> rename_i eq <;> rw [eq] at next
      · exact ih next
      · exact next

theorem Numbered.reconcile (numbered : r.Numbered) (policy : KindSet) : Checked policy r (r.reconcile policy .all).2 ∧
    ((r.reconcile policy .all).1 = .ok () → ∀ p ∈ (r.reconcile policy .all).2.active, p.2 ∈ policy) := by
  obtain ⟨checked, fine⟩ := numbered.checkAll policy (r.idsOf .all)
  refine ⟨checked, fun ok => fine ok fun p mem => Or.inl ?_⟩
  obtain ⟨c, origin, -, rfl⟩ := mem_active.1 mem
  exact List.mem_map_of_mem (List.mem_filter.2 ⟨origin, decide_eq_true KindSet.mem_all⟩)

structure Widens (policy : KindSet) (r r' : Reactor) : Prop where
  numbered : r'.Numbered
  checked : Checked policy r r'
  kept : r.active ⊆ r'.active

theorem Widens.trans (first : Widens policy r r') (second : Widens policy r' r'') : Widens policy r r'' :=
  ⟨second.numbered, first.checked.trans second.checked, List.Subset.trans first.kept second.kept⟩

theorem Numbered.widens_map (numbered : r.Numbered) (counter : r'.ids = r.ids) {f : Connection → Connection}
    (keeps : ∀ c, (f c).id = c.id ∧ (f c).kind = c.kind ∧ ((f c).IsActive ↔ c.IsActive))
    (connections : r'.connections = r.connections.map f) : Widens policy r r' := by
  have same : r'.active = r.active := active_map (fun c _ => keeps c) connections
  refine ⟨numbered.of_ids counter ?_, .of_eq same, same ▸ List.Subset.refl _⟩
  rw [connections, List.map_map]
  exact List.map_congr_left fun c _ => (keeps c).1

theorem Numbered.widens (numbered : r.Numbered) (counter : r'.ids = r.ids)
    (connections : r'.connections = r.connections) : Widens policy r r' :=
  numbered.widens_map counter (fun _ => ⟨rfl, rfl, Iff.rfl⟩) (connections.trans (List.map_id' _).symm)

theorem Numbered.assign (numbered : r.Numbered) (id : Nat) (e : Endpoint) : Widens policy r (r.assign id e).2 := by
  unfold Reactor.assign
  dsimp only
  split
  · exact numbered.widens rfl rfl
  · split
    · exact numbered.widens rfl rfl
    · split
      · exact numbered.widens rfl rfl
      · refine numbered.widens_map rfl (fun c => ?_) (updateFirst_eq_map numbered.distinct)
        split <;> exact ⟨rfl, rfl, Iff.rfl⟩

theorem Numbered.widens_append (numbered : r.Numbered) {n : Connection} (number : n.id = r.ids.next)
    (allowed : n.IsActive → n.kind ∈ policy) {added : List Connection} (new : added.Sublist [n])
    (counter : r'.ids.next = r.ids.next + 1) (connections : r'.connections = r.connections ++ added) :
    Widens policy r r' := by
  have fresh : ∀ c ∈ added, c = n := fun c mem => List.mem_singleton.1 (new.subset mem)
  have members (c : Connection) : c ∈ r'.connections ↔ c ∈ r.connections ∨ c ∈ added := by
    rw [connections, List.mem_append]
  refine ⟨⟨by omega, ?_, fun c mem => ?_⟩, fun p mem => ?_, fun p mem => ?_⟩
  · rw [connections, List.map_append, List.nodup_append]
    refine ⟨numbered.distinct, (new.map _).nodup (List.nodup_singleton _), ?_⟩
    rintro _ old _ last rfl
    obtain ⟨b, origin, same⟩ := List.mem_map.1 old
    obtain ⟨c, origin', same'⟩ := List.mem_map.1 last
    have below := numbered.below b origin
    rw [same, ← same', fresh c origin', number] at below
    exact Nat.lt_irrefl _ below
  · rcases (members c).1 mem with old | last
    · have below := numbered.below c old
      omega
    · rw [fresh c last]
      omega
  · obtain ⟨c, origin, running, rfl⟩ := mem_active.1 mem
    rcases (members c).1 origin with old | last
    · exact Or.inr (mem_active.2 ⟨c, old, running, rfl⟩)
    · obtain rfl := fresh c last
      exact Or.inl (allowed running)
  · obtain ⟨c, origin, running, rfl⟩ := mem_active.1 mem
    exact mem_active.2 ⟨c, (members c).2 (Or.inl origin), running, rfl⟩

theorem Numbered.register (numbered : r.Numbered) (last : r.ids.next < idBound) (policy : KindSet) (kind : Kind)
    (receiver : Receiver) (wanted : Flags) : Widens policy r (r.register policy kind receiver wanted).2 := by
  unfold Reactor.register
  split
  · exact numbered.widens rfl rfl
  · rw [take_eq numbered.positive last]
    dsimp only
    generalize new : Connection.new r.ids.next kind receiver wanted = n
    have number : n.id = r.ids.next := by rw [← new]; rfl
    have idle : ¬n.IsActive := by rw [← new]; rintro ⟨⟩
    generalize join : ({ r with ids := ⟨r.ids.next + 1⟩ } : Reactor).add n = joined
    have whole : joined.connections = r.connections ++ [n] := by rw [← join]; rfl
    have counted : joined.ids.next = r.ids.next + 1 := by rw [← join]; rfl
    have fits : Widens policy r joined :=
      numbered.widens_append number (absurd · idle) (List.Sublist.refl _) counted whole
    have counter := checkActivate_ids joined r.ids.next policy .activate
    obtain ⟨f, connections, keeps⟩ := fits.numbered.checkActivate r.ids.next policy
    have others : r.connections.map (fun c => if c.id = r.ids.next then f c else c) = r.connections :=
      (List.map_congr_left fun c mem => if_neg (numbered.below c mem).ne).trans (List.map_id' _)
    rw [whole, List.map_append, others, List.map_singleton, if_pos number] at connections
    obtain ⟨key, kind, active, -⟩ := keeps n (by simp [whole]) number
    have allowed (running : (f n).IsActive) : (f n).kind ∈ policy := kind ▸ (active running).resolve_left idle
    split <;> rename_i eq <;> rw [eq] at connections counter <;> dsimp only at connections counter
    · exact numbered.widens_append (key.trans number) allowed (List.Sublist.refl _) (counter ▸ counted) connections
    · refine numbered.widens_append (key.trans number) allowed (List.nil_sublist _) (?_ : _ = _) ?_
      · rw [← counted, ← counter]
        rfl
      · rw [Reactor.withdraw, connections, List.dropLast_concat, List.append_nil]

end Reactor

namespace Site

variable {s : Site}

def Obeys (s : Site) : Prop := ∀ c ∈ s.reactor.connections, c.IsActive → c.kind ∈ s.state.filter.allowed

theorem obeys_iff : s.Obeys ↔ ∀ p ∈ s.reactor.active, p.2 ∈ s.state.filter.allowed := by
  constructor
  · intro obeys p mem
    obtain ⟨c, origin, running, rfl⟩ := Reactor.mem_active.1 mem
    exact obeys c origin running
  · intro allowed c mem running
    exact allowed (c.id, c.kind) (Reactor.mem_active.2 ⟨c, mem, running, rfl⟩)

structure Widens (s s' : Site) : Prop where
  filter : s'.state.filter = s.state.filter
  reactor : Reactor.Widens s.state.filter.allowed s.reactor s'.reactor

theorem Widens.trans {s' s'' : Site} (first : s.Widens s') (second : s'.Widens s'') : s.Widens s'' :=
  ⟨second.filter.trans first.filter, first.reactor.trans (first.filter ▸ second.reactor)⟩

theorem ensureListener_widens (numbered : s.reactor.Numbered) (address : Net.Address)
    (last : (s.ensureListener address).2.reactor.ids.next < idBound) : s.Widens (s.ensureListener address).2 := by
  have before := (ensureListener_later address s).ids_le.trans_lt last
  clear last
  unfold Site.ensureListener Site.openListener
  rcases s.reactor.host.listenNetwork address with ⟨outcome, host⟩
  have opened : s.Widens (s.setHost host) := ⟨rfl, numbered.widens rfl rfl⟩
  have same : s.Widens s := ⟨rfl, numbered.widens rfl rfl⟩
  cases outcome with
  | error e =>
      dsimp only [Except.mapError]
      split
      · split
        · exact opened
        · exact same
      · exact opened
  | ok e =>
      dsimp only [Except.mapError]
      split
      · split
        · exact opened.trans ⟨rfl, opened.reactor.numbered.assign _ e⟩
        · exact same
      · have registered := opened.reactor.trans
          (opened.reactor.numbered.register before s.state.filter.allowed .clientConnect (.ofEndpoint e) Flags.input)
        rw [react_eq]
        split <;> rename_i done <;> obtain ⟨-, rfl⟩ := Prod.mk.inj done <;> exact ⟨rfl, registered⟩

theorem ensureEach_widens (numbered : s.reactor.Numbered) (addresses : List Net.Address)
    (last : (s.ensureEach addresses).2.reactor.ids.next < idBound) : s.Widens (s.ensureEach addresses).2 := by
  induction addresses generalizing s with
  | nil => exact ⟨rfl, numbered.widens rfl rfl⟩
  | cons address addresses ih =>
      unfold Site.ensureEach at last ⊢
      have first := ensureListener_widens numbered address
      split at last <;> rename_i eq <;> rw [eq] at first
      · exact first last
      · rename_i t
        have before := (ensureEach_later addresses t).ids_le.trans_lt last
        have begun := first before
        exact begun.trans (ih begun.reactor.numbered last)

theorem ensureListeners_widens (numbered : s.reactor.Numbered) (last : s.ensureListeners.2.reactor.ids.next < idBound) :
    s.Widens s.ensureListeners.2 := by
  unfold Site.ensureListeners at last ⊢
  split at last
  · rename_i wanted
    rw [if_pos wanted]
    obtain ⟨filter, reactor⟩ := ensureEach_widens (s := s.forgetListeners) numbered _ last
    exact ⟨filter, reactor⟩
  · rename_i unwanted
    rw [if_neg unwanted]
    exact ⟨rfl, numbered.widens rfl rfl⟩

theorem react_error {α : Type} {f : Reactor → Except EventError α × Reactor} {s' : Site} {e : DaemonError}
    (failed : s.react f = (.error e, s')) : ∃ error, e = .event error := by
  rw [react_eq] at failed
  cases answer : (f s.reactor).1 with
  | ok a =>
      rw [answer] at failed
      cases failed
  | error error =>
      rw [answer] at failed
      cases failed
      exact ⟨error, rfl⟩

theorem openListener_error {address : Net.Address} {s' : Site} {e : DaemonError}
    (failed : s.openListener address = (.error e, s')) : ∃ place error, e = .socket place error := by
  have parts : s.openListener address = ((s.reactor.host.listenNetwork address).1.mapError
      (.socket (address.withPort s.state.settings.port)), s.setHost (s.reactor.host.listenNetwork address).2) := rfl
  rw [parts] at failed
  cases answer : (s.reactor.host.listenNetwork address).1 with
  | ok e =>
      rw [answer] at failed
      cases failed
  | error error =>
      rw [answer] at failed
      cases failed
      exact ⟨_, error, rfl⟩

theorem ensureListener_error {address : Net.Address} {s' : Site} {e : DaemonError}
    (failed : s.ensureListener address = (.error e, s')) :
    (∃ place error, e = .socket place error) ∨ ∃ error, e = .event error := by
  unfold Site.ensureListener at failed
  split at failed
  · split at failed
    · split at failed <;> rename_i opened
      · cases failed
        exact Or.inl (openListener_error opened)
      · exact Or.inr (react_error failed)
    · cases failed
  · split at failed <;> rename_i opened
    · cases failed
      exact Or.inl (openListener_error opened)
    · split at failed <;> rename_i registered
      · cases failed
        exact Or.inr (react_error registered)
      · cases failed

theorem ensureListeners_error {s' : Site} {e : DaemonError} (failed : s.ensureListeners = (.error e, s')) :
    (∃ place error, e = .socket place error) ∨ ∃ error, e = .event error := by
  unfold Site.ensureListeners at failed
  split at failed
  · generalize s.state.settings.listenAddresses = addresses at failed
    generalize s.forgetListeners = s at failed
    induction addresses generalizing s with
    | nil => cases failed
    | cons address addresses ih =>
        unfold Site.ensureEach at failed
        split at failed <;> rename_i eq
        · cases failed
          exact ensureListener_error eq
        · exact ih _ failed
  · cases failed

theorem reconcile_ids_le (t : Site) : t.reactor.ids.next ≤
    (t.react (Reactor.reconcile t.state.filter.allowed .all)).2.reactor.ids.next :=
  (react_later t (Custody.checkAll _ _ _)).ids_le

/-- After a level was put in force, or was refused by the filter, the policy is followed. If a listener cannot be
opened, it is followed exactly if it allows all that was active before, and the daemon is asked to end. -/
theorem applyLevel_obeys (numbered : s.reactor.Numbered) (level : Nat)
    (last : (s.applyLevel level).2.reactor.ids.next < idBound) :
    (∀ change, (s.applyLevel level).1 = .ok change → (s.applyLevel level).2.Obeys) ∧
    (∀ e, (s.applyLevel level).1 = .error (.filter e) → (s.applyLevel level).2 = s) ∧
    (∀ address e, (s.applyLevel level).1 = .error (.socket address e) → (s.applyLevel level).2.state.exit = true ∧
      ((s.applyLevel level).2.Obeys ↔
        ∀ c ∈ s.reactor.connections, c.IsActive → c.kind ∈ (s.applyLevel level).2.state.filter.allowed)) ∧
    ∀ c ∈ (s.applyLevel level).2.reactor.connections, c.IsActive →
      c.kind ∈ (s.applyLevel level).2.state.filter.allowed ∨
        ∃ b ∈ s.reactor.connections, b.IsActive ∧ b.id = c.id ∧ b.kind = c.kind := by
  -- Whatever phase the change ends in: what is active then is allowed, or was active before.
  have traced {s' : Site} (checked : Reactor.Checked s'.state.filter.allowed s.reactor s'.reactor) :
      ∀ c ∈ s'.reactor.connections, c.IsActive → c.kind ∈ s'.state.filter.allowed ∨
        ∃ b ∈ s.reactor.connections, b.IsActive ∧ b.id = c.id ∧ b.kind = c.kind := by
    intro c mem running
    refine (checked (c.id, c.kind) (Reactor.mem_active.2 ⟨c, mem, running, rfl⟩)).imp_right fun before => ?_
    obtain ⟨b, origin, running, same⟩ := Reactor.mem_active.1 before
    exact ⟨b, origin, running, congrArg Prod.fst same, congrArg Prod.snd same⟩
  unfold Site.applyLevel at last ⊢
  split at last
  · exact ⟨by rintro _ ⟨⟩, fun _ _ => rfl, by rintro _ _ ⟨⟩, fun c mem running => Or.inr ⟨c, mem, running, rfl, rfl⟩⟩
  · rename_i change filter _
    have widens := @ensureListeners_widens (s.setFilter filter) numbered
    split at last <;> rename_i ensured <;> rw [ensured] at widens
    · rename_i e t
      obtain ⟨same, -, checked, kept⟩ := widens last
      have checked : Reactor.Checked t.state.filter.allowed s.reactor t.reactor := same ▸ checked
      refine ⟨by rintro _ ⟨⟩, fun f failed => ?_,
        fun _ _ _ => ⟨rfl, fun obeys c mem running => ?_, fun allowed c mem running => ?_⟩, traced checked⟩
      · cases failed
        rcases ensureListeners_error ensured with ⟨_, _, bad⟩ | ⟨_, bad⟩ <;> cases bad
      · have still := kept (Reactor.mem_active.2 ⟨c, mem, running, rfl⟩)
        exact obeys_iff.1 obeys (c.id, c.kind) still
      · rcases traced checked c mem running with fine | ⟨b, origin, running, -, kind⟩
        · exact fine
        · exact kind ▸ allowed b origin running
    · rename_i t
      have before : t.reactor.ids.next < idBound := by
        refine (reconcile_ids_le t).trans_lt ?_
        split at last <;> rename_i done <;> rw [done] <;> exact last
      obtain ⟨same, widened, checked, -⟩ := widens before
      have checked : Reactor.Checked t.state.filter.allowed s.reactor t.reactor := same ▸ checked
      obtain ⟨reconciled, fine⟩ := widened.reconcile t.state.filter.allowed
      have traced := @traced { t with reactor := (t.reactor.reconcile t.state.filter.allowed .all).2 }
        (checked.trans reconciled)
      split <;> rename_i done
      · obtain ⟨error, rfl⟩ := react_error done
        obtain rfl := congrArg Prod.snd done
        exact ⟨by rintro _ ⟨⟩, by rintro _ ⟨⟩, by rintro _ _ ⟨⟩, traced⟩
      · obtain ⟨answer, rfl⟩ := Prod.mk.inj ((react_eq _ _).symm.trans done)
        have ok : (t.reactor.reconcile t.state.filter.allowed .all).1 = .ok () := by
          cases outcome : (t.reactor.reconcile t.state.filter.allowed .all).1 with
          | ok => rfl
          | error error =>
              rw [outcome] at answer
              cases answer
        exact ⟨fun _ _ => obeys_iff.2 (fine ok), by rintro _ ⟨⟩, by rintro _ _ ⟨⟩, traced⟩

end Site

namespace Stranded

open TraceGate.Filter

def filter : MessageFilter where
  name := "Vehicle"
  backend := none
  chain := ⟨[⟨"Serial", 0, 49, ListText.clients "Serial", .full, .nothing⟩,
    ⟨"Open", 50, 100, ListText.clients "TCP", .full, .nothing⟩]⟩
  registry := {}
  defaultLevel := 10
  level := 10
  current := 0
  current_lt := by decide

def site : Site :=
  let (e, host) := ({} : Host).openStream "200"
  let state : State := { settings := { bindAddresses := [.v4 192 0 2 1] }, filter }
  (Site.react ⟨state, { host }⟩ (Reactor.register filter.allowed .clientMsgSerial (.ofEndpoint e) Flags.input)).2

theorem site_numbered : site.reactor.Numbered := ⟨by decide +kernel, by decide +kernel, by decide +kernel⟩

def isRefused : Except DaemonError LevelChange → Bool
  | .error (.socket _ _) => true
  | _ => false

theorem serial_stays_active : site.Obeys ∧ ¬(site.applyLevel 60).2.Obeys := by
  have counted : (site.applyLevel 60).2.reactor.ids.next < idBound := by decide +kernel
  have refused : isRefused (site.applyLevel 60).1 = true := by decide +kernel
  have serial : ∀ c ∈ site.reactor.connections, c.kind = .clientMsgSerial := by decide +kernel
  obtain ⟨c, mem, running⟩ : ∃ c ∈ site.reactor.connections, c.IsActive := by decide +kernel
  refine ⟨fun d mem _ => serial d mem ▸ (by decide +kernel), fun obeys => ?_⟩
  unfold isRefused at refused
  split at refused
  · rename_i eq
    have allowed := ((Site.applyLevel_obeys site_numbered 60 counted).2.2.1 _ _ eq).2.1 obeys c mem running
    rw [serial c mem] at allowed
    revert allowed
    decide +kernel
  · cases refused

end Stranded

end TraceGate
