import TraceGate.Proofs.Daemon.Keeping
import TraceGate.Proofs.Reactor.Settling

/-!
# Applying a level again

A level that was put in force leaves nothing to do: applied again at once it changes nothing, and no socket is opened.

Numbers may be given twice, so an entry of the list of listeners may stand for a connection that has another entry. What
was seen to for one address then waits for a later one. At the last address nothing waits any more, because every client
listener has an entry of its own with an address to listen on (`Site.Entered`).
-/

namespace TraceGate

open Connection

/-- What a change comes to that leaves the level as it is. -/
structure Filter.LevelChange.Idle (change : LevelChange) (level : Nat) : Prop where
  previousLevel : change.previousLevel = level
  level : change.level = level
  segmentChanged : change.segmentChanged = false
  changedKinds : change.changedKinds = ∅

theorem Filter.MessageFilter.changeLevel_again {f g : MessageFilter} {n : Nat} {change : LevelChange}
    (ok : f.changeLevel n = .ok (change, g)) : ∃ again, g.changeLevel n = .ok (again, g) ∧ again.Idle n := by
  unfold MessageFilter.changeLevel at ok
  obtain ⟨level, checked, ok⟩ := bind_eq_ok.1 ok
  obtain ⟨same, -⟩ := checkLevel_eq_ok_iff.1 checked
  obtain rfl : n = level := by omega
  split at ok
  · cases ok
  · rename_i next found
    cases ok
    unfold MessageFilter.changeLevel
    rw [checked]
    dsimp only [bind, Except.bind, pure, Except.pure]
    split
    · rename_i absent
      rw [found] at absent
      cases absent
    · rename_i again found'
      obtain rfl : again = next := Option.some_inj.1 (found'.symm.trans found)
      refine ⟨_, rfl, rfl, rfl, bne_self_eq_false _, ?_⟩
      simp only [LevelChange.changedKinds, KindSet.symmDiff, BitVec.xor_self]
      rfl

namespace Site

open Reactor

variable {s t : Site} {address : Net.Address} {level : Nat}

theorem error_of_mapError {ε ε' α : Type} {outcome : Except ε α} {message : ε → ε'} {e' : ε'}
    (failed : outcome.mapError message = .error e') : ∃ e, outcome = .error e := by
  cases outcome with
  | error e => exact ⟨e, rfl⟩
  | ok a => cases failed

inductive Provides (address : Net.Address) (s : Site) : Site → Prop
  | kept {id : Nat} (listed : s.state.listeners.find? (·.2 == address) = some (id, address))
      (holds : s.reactor.fdOf? id ≠ some none) : Provides address s s
  | assigned {id : Nat} {e : Endpoint} {host : Host}
      (listed : s.state.listeners.find? (·.2 == address) = some (id, address))
      (ok : (({ s.reactor with host } : Reactor).assign id e).1 = .ok ()) :
      Provides address s { s with reactor := (({ s.reactor with host } : Reactor).assign id e).2 }
  | registered {id : Nat} {e : Endpoint} {host : Host} (unlisted : s.state.listeners.find? (·.2 == address) = none)
      (ok : (({ s.reactor with host } : Reactor).register s.state.filter.allowed .clientConnect (.ofEndpoint e)
        Flags.input).1 = .ok id) :
      Provides address s (({ s with reactor := (({ s.reactor with host } : Reactor).register s.state.filter.allowed
        .clientConnect (.ofEndpoint e) Flags.input).2 } : Site).addListener id address)

theorem assign_error {r : Reactor} {id : Nat} {e : Endpoint} {error : EventError} (failed : (r.assign id e).1 = .error error) :
    (r.assign id e).2.connections = r.connections := by
  unfold Reactor.assign at failed ⊢
  dsimp only at failed ⊢
  split
  · rfl
  · split
    · rfl
    · split
      · rfl
      · simp_all

theorem ensureListener_cases (address : Net.Address) (s : Site) :
    ((∃ e, (s.ensureListener address).1 = .error e) ∧ (s.ensureListener address).2.state = s.state ∧
      (s.ensureListener address).2.reactor.connections = s.reactor.connections) ∨
    (s.ensureListener address).1 = .ok () ∧ s.Provides address (s.ensureListener address).2 := by
  unfold Site.ensureListener Site.openListener
  rcases s.reactor.host.listenNetwork address with ⟨_ | e, host⟩ <;> dsimp only [Except.mapError]
  · split
    · rename_i id named listed
      obtain rfl : named = address := by simpa using List.find?_some listed
      split
      · exact Or.inl ⟨⟨_, rfl⟩, rfl, rfl⟩
      · rename_i holds
        refine Or.inr ⟨rfl, .kept listed fun vacant => holds ?_⟩
        obtain ⟨c, found, free⟩ := Option.map_eq_some_iff.1 vacant
        simp [found, free]
    · exact Or.inl ⟨⟨_, rfl⟩, rfl, rfl⟩
  · split
    · rename_i id named listed
      obtain rfl : named = address := by simpa using List.find?_some listed
      split
      · rw [react_eq]
        cases answer : (({ s.reactor with host } : Reactor).assign id e).1 with
        | error error => exact Or.inl ⟨⟨_, congrArg (Except.mapError DaemonError.event) answer⟩, rfl, assign_error (r := { s.reactor with host }) answer⟩
        | ok => exact Or.inr ⟨congrArg (Except.mapError DaemonError.event) answer, .assigned listed answer⟩
      · rename_i holds
        refine Or.inr ⟨rfl, .kept listed fun vacant => holds ?_⟩
        obtain ⟨c, found, free⟩ := Option.map_eq_some_iff.1 vacant
        simp [found, free]
    · rename_i unlisted
      rw [react_eq]
      split <;> rename_i done <;> obtain ⟨answer, rfl⟩ := Prod.mk.inj done
      · obtain ⟨error, failed⟩ := error_of_mapError answer
        exact Or.inl ⟨⟨_, rfl⟩, rfl, register_error failed⟩
      · rename_i id t
        exact Or.inr ⟨rfl, .registered unlisted (ok_of_mapError answer)⟩

theorem register_keys_ok {r : Reactor} {policy : KindSet} {kind : Kind} {receiver : Receiver} {wanted : Flags} {id : Nat}
    (ok : (r.register policy kind receiver wanted).1 = .ok id) :
    id = r.ids.take.1 ∧ (r.register policy kind receiver wanted).2.keys = r.keys ++ [(id, kind)] := by
  unfold Reactor.register at ok ⊢
  split at ok
  · cases ok
  · rename_i held
    rw [if_neg held]
    have keys := checkActivate_keys (({ r with ids := r.ids.take.2 } : Reactor).add (.new r.ids.take.1 kind receiver wanted))
      r.ids.take.1 policy .activate
    dsimp only at ok ⊢
    split at ok <;> rename_i eq <;> rw [eq] at keys
    · cases ok
      exact ⟨rfl, keys.trans (add_keys r r.ids.take.2 _)⟩
    · cases ok

/-- Every client listener has an entry with an address to listen on, and no address has two. -/
structure Entered (s : Site) : Prop where
  homed : s.reactor.Each Homed
  entered : ∀ key ∈ s.reactor.keys, key.2 = .clientConnect →
    ∃ address ∈ s.state.settings.listenAddresses, (key.1, address) ∈ s.state.listeners
  addresses : (s.state.listeners.map (·.2)).Nodup

theorem Entered.of_keys (entered : s.Entered) (homed : t.reactor.Each Homed)
    (keys : ∀ key ∈ t.reactor.keys, key.2 = .clientConnect → key ∈ s.reactor.keys)
    (listeners : t.state.listeners = s.state.listeners) (settings : t.state.settings = s.state.settings) : t.Entered := by
  refine ⟨homed, ?_, ?_⟩ <;> rw [listeners]
  · rw [settings]
    exact fun key mem client => entered.entered key (keys key mem client) client
  · exact entered.addresses

theorem Entered.of_connections (entered : s.Entered) (connections : t.reactor.connections = s.reactor.connections)
    (listeners : t.state.listeners = s.state.listeners) (settings : t.state.settings = s.state.settings) : t.Entered := by
  refine entered.of_keys (entered.homed.of_subset (connections ▸ List.Subset.refl _)) (fun key mem _ => ?_) listeners settings
  rwa [keys, connections] at mem

theorem Entered.find (entered : s.Entered) {id : Nat} (mem : (id, address) ∈ s.state.listeners) :
    s.state.listeners.find? (·.2 == address) = some (id, address) := by
  cases found : s.state.listeners.find? (·.2 == address) with
  | none => exact absurd (List.find?_eq_none.1 found _ mem) (by simp)
  | some l =>
      have same : l.2 = address := by simpa using List.find?_some found
      rw [List.inj_on_of_nodup_map entered.addresses (List.mem_of_find?_eq_some found) mem same]

theorem Entered.eq_of_address (entered : s.Entered) {i j : Nat} (first : (i, address) ∈ s.state.listeners)
    (second : (j, address) ∈ s.state.listeners) : i = j :=
  congrArg Prod.fst (List.inj_on_of_nodup_map entered.addresses first second rfl)

theorem Provides.entered (provides : s.Provides address t) (entered : s.Entered)
    (wanted : address ∈ s.state.settings.listenAddresses) : t.Entered := by
  cases provides with
  | kept listed holds => exact entered
  | @assigned id e host listed ok =>
      refine entered.of_keys (Each.assign (r := { s.reactor with host }) (lasting_homed ∅) entered.homed id e) (fun key mem _ => ?_) rfl rfl
      rwa [(assign_keys { s.reactor with host } id e).1] at mem
  | @registered id e host unlisted ok =>
      refine ⟨Each.register (r := { s.reactor with host }) (lasting_homed _) entered.homed _ e _, fun key mem client => ?_, ?_⟩
      · rcases mem_register_keys mem with old | rfl
        · obtain ⟨named, among, entry⟩ := entered.entered key old client
          exact ⟨named, among, List.mem_append_left _ entry⟩
        · rw [(register_keys_ok ok).1]
          exact ⟨address, wanted, List.mem_append_right _ List.mem_cons_self⟩
      · exact nodup_map_concat entered.addresses fun l mem => by simpa using List.find?_eq_none.1 unlisted l mem

theorem Entered.ensureListener (entered : s.Entered) (wanted : address ∈ s.state.settings.listenAddresses) :
    (s.ensureListener address).2.Entered := by
  rcases ensureListener_cases address s with ⟨-, state, connections⟩ | ⟨-, provides⟩
  · exact entered.of_connections connections (congrArg State.listeners state) (congrArg State.settings state)
  · exact provides.entered entered wanted

theorem Entered.ensureEach {addresses : List Net.Address} (entered : s.Entered)
    (wanted : addresses ⊆ s.state.settings.listenAddresses) : (s.ensureEach addresses).2.Entered := by
  induction addresses generalizing s with
  | nil => exact entered
  | cons address addresses ih =>
      have first := entered.ensureListener (wanted List.mem_cons_self)
      have state := (ensureListener_extends address s).state
      unfold Site.ensureEach
      split <;> rename_i eq <;> rw [eq] at first state
      · exact first
      · refine ih first ?_
        rw [state]
        exact fun a mem => wanted (List.mem_cons_of_mem _ mem)

theorem Entered.forgetListeners (entered : s.Entered) : s.forgetListeners.Entered := by
  refine ⟨entered.homed, fun key mem client => ?_, entered.addresses.sublist (List.filter_sublist.map _)⟩
  obtain ⟨address, among, entry⟩ := entered.entered key mem client
  obtain ⟨c, found⟩ := exists_connection? (r := s.reactor) (List.mem_map_of_mem (f := Prod.fst) mem)
  exact ⟨address, among, List.mem_filter.2 ⟨entry, by simp [found]⟩⟩

theorem Entered.ensureListeners (entered : s.Entered) : s.ensureListeners.2.Entered := by
  unfold Site.ensureListeners
  split
  · exact entered.forgetListeners.ensureEach (List.Subset.refl _)
  · exact entered

theorem Entered.reconcile (entered : s.Entered) (policy : KindSet) :
    ({ s with reactor := (s.reactor.reconcile policy .all).2 } : Site).Entered := by
  refine entered.of_keys (entered.homed.checkAll (lasting_homed policy) _) (fun key mem _ => ?_) rfl rfl
  rwa [Reactor.reconcile, (checkAll_keys policy _ s.reactor).1] at mem

theorem Entered.applyLevel (entered : s.Entered) (level : Nat) : (s.applyLevel level).2.Entered := by
  rcases applyLevel_phases level s with ⟨e, same⟩ | ⟨filter, t, ⟨e, ensured, same⟩ | ⟨ensured, same, -⟩⟩
  · rwa [same]
  · have after : (s.setFilter filter).ensureListeners.2.Entered :=
      Entered.ensureListeners (entered.of_connections rfl rfl rfl)
    rw [same]
    rw [ensured] at after
    exact after.of_connections rfl rfl rfl
  · have after : (s.setFilter filter).ensureListeners.2.Entered :=
      Entered.ensureListeners (entered.of_connections rfl rfl rfl)
    rw [same]
    rw [ensured] at after
    exact after.reconcile _

/-- Every address has an entry but for those to come. If the entry stands for a connection without a descriptor, the
connection has an entry with an address to come, too. -/
def Awaits (rest : List Net.Address) (s : Site) : Prop :=
  ∀ address ∈ s.state.settings.listenAddresses, address ∉ rest → ∃ id, (id, address) ∈ s.state.listeners ∧
    (s.reactor.fdOf? id = some none → ∃ later ∈ rest, (id, later) ∈ s.state.listeners)

def Linked (s : Site) : Prop := ∀ l ∈ s.state.listeners, l.1 ∈ s.reactor.keys.map Prod.fst

section

variable {rest : List Net.Address} {id : Nat}

theorem Awaits.settle (awaits : s.Awaits (address :: rest)) (entered : s.Entered) (entry : (id, address) ∈ s.state.listeners)
    (state : t.state = s.state) (holds : t.reactor.fdOf? id ≠ some none)
    (before : ∀ j, t.reactor.fdOf? j = some none → s.reactor.fdOf? j = some none) : t.Awaits rest := by
  unfold Awaits
  rw [state]
  intro a wanted past
  by_cases here : a = address
  · subst here
    exact ⟨id, entry, fun vacant => absurd vacant holds⟩
  · obtain ⟨j, own, later⟩ := awaits a wanted (by simp [here, past])
    refine ⟨j, own, fun vacant => ?_⟩
    obtain ⟨b, among, known⟩ := later (before j vacant)
    rcases List.mem_cons.1 among with rfl | among
    · obtain rfl := entered.eq_of_address known entry
      exact absurd vacant holds
    · exact ⟨b, among, known⟩

theorem Awaits.onward (awaits : s.Awaits (address :: rest)) (entered : s.Entered)
    (absent : ∀ j, (j, address) ∉ s.state.listeners) {j : Nat} {a : Net.Address}
    (wanted : a ∈ s.state.settings.listenAddresses) (past : a ∉ address :: rest) (own : (j, a) ∈ s.state.listeners)
    (vacant : s.reactor.fdOf? j = some none) : ∃ b ∈ rest, (j, b) ∈ s.state.listeners := by
  obtain ⟨i, entry, later⟩ := awaits a wanted past
  obtain rfl := entered.eq_of_address own entry
  obtain ⟨b, among, known⟩ := later vacant
  rcases List.mem_cons.1 among with rfl | among
  · exact absurd known (absent j)
  · exact ⟨b, among, known⟩

theorem Awaits.vacant (awaits : s.Awaits (address :: rest)) (entered : s.Entered)
    (absent : ∀ j, (j, address) ∉ s.state.listeners) (vacant : s.reactor.fdOf? id = some none) :
    ∃ b ∈ rest, (id, b) ∈ s.state.listeners := by
  obtain ⟨d, found, free⟩ := Option.map_eq_some_iff.1 vacant
  obtain ⟨rfl, -⟩ := connection?_split found
  have mem := connection?_mem found
  obtain ⟨b, among, known⟩ := entered.entered d.key (List.mem_map_of_mem mem) (entered.homed d mem free)
  by_cases soon : b ∈ rest
  · exact ⟨b, soon, known⟩
  · refine awaits.onward entered absent among (fun past => ?_) known vacant
    rcases List.mem_cons.1 past with rfl | later
    · exact absent _ known
    · exact soon later

theorem Provides.awaits (provides : s.Provides address t) (entered : s.Entered)
    (allowed : .clientConnect ∈ s.state.filter.allowed) (awaits : s.Awaits (address :: rest)) : t.Awaits rest := by
  cases provides with
  | @kept id listed holds =>
      exact awaits.settle entered (List.mem_of_find?_eq_some listed) rfl holds fun _ vacant => vacant
  | @assigned id e host listed ok =>
      have fds := fdOf?_assign ok
      refine awaits.settle entered (List.mem_of_find?_eq_some listed) rfl (fun vacant => ?_) fun j vacant => ?_
      · rw [fds, if_pos rfl] at vacant
        cases vacant
      · rw [fds] at vacant
        split at vacant
        · cases vacant
        · exact vacant
  | @registered id e host unlisted ok =>
      have absent : ∀ j, (j, address) ∉ s.state.listeners := fun j mem => by
        simpa using List.find?_eq_none.1 unlisted _ mem
      have before {j : Nat} (vacant : (({ s.reactor with host } : Reactor).register s.state.filter.allowed .clientConnect
          (.ofEndpoint e) Flags.input).2.fdOf? j = some none) : ∃ b ∈ rest, (j, b) ∈ s.state.listeners := by
        rw [fdOf?_register allowed ok] at vacant
        rcases Option.or_eq_some_iff.1 vacant with old | ⟨-, new⟩
        · exact awaits.vacant entered absent old
        · split at new <;> cases new
      intro a wanted past
      obtain ⟨j, own⟩ : ∃ j, (j, a) ∈ s.state.listeners ++ [(id, address)] := by
        by_cases here : a = address
        · exact ⟨id, List.mem_append_right _ (here ▸ List.mem_cons_self)⟩
        · obtain ⟨j, own, -⟩ := awaits a wanted (by simp [here, past])
          exact ⟨j, List.mem_append_left _ own⟩
      refine ⟨j, own, fun vacant => ?_⟩
      obtain ⟨b, among, known⟩ := before vacant
      exact ⟨b, among, List.mem_append_left _ known⟩

end

theorem Provides.linked (provides : s.Provides address t) (linked : s.Linked) : t.Linked := by
  cases provides with
  | kept listed holds => exact linked
  | @assigned id e host listed ok =>
      intro l mem
      rw [(assign_keys { s.reactor with host } id e).1]
      exact linked l mem
  | @registered id e host unlisted ok =>
      intro l mem
      change l.1 ∈ (Reactor.register _ _ _ _ _).2.keys.map Prod.fst
      rw [(register_keys_ok ok).2, List.map_append]
      rcases List.mem_append.1 mem with old | new
      · exact List.mem_append_left _ (linked l old)
      · rw [List.mem_singleton.1 new]
        exact List.mem_append_right _ List.mem_cons_self

structure Provided (s : Site) : Prop where
  entered : s.Entered
  linked : s.Linked
  awaits : s.Awaits []

theorem ensureEach_provided {addresses : List Net.Address} (entered : s.Entered) (linked : s.Linked)
    (allowed : .clientConnect ∈ s.state.filter.allowed) (wanted : addresses ⊆ s.state.settings.listenAddresses)
    (awaits : s.Awaits addresses) (ok : (s.ensureEach addresses).1 = .ok ()) : (s.ensureEach addresses).2.Provided := by
  induction addresses generalizing s with
  | nil => exact ⟨entered, linked, awaits⟩
  | cons address addresses ih =>
      have state := (ensureListener_extends address s).state
      rcases ensureListener_cases address s with ⟨⟨e, failed⟩, -⟩ | ⟨done, provides⟩
      · rw [Site.ensureEach] at ok
        split at ok <;> rename_i eq <;> rw [eq] at failed
        · cases ok
        · cases failed
      · rw [Site.ensureEach] at ok ⊢
        split at ok <;> rename_i eq <;> rw [eq] at done state provides
        · cases ok
        · refine ih (provides.entered entered (wanted List.mem_cons_self)) (provides.linked linked) ?_ ?_
            (provides.awaits entered allowed awaits) ok
          · rwa [state]
          · rw [state]
            exact fun a mem => wanted (List.mem_cons_of_mem _ mem)

theorem ensureListeners_provided (entered : s.Entered) (allowed : .clientConnect ∈ s.state.filter.allowed)
    (ok : s.ensureListeners.1 = .ok ()) : s.ensureListeners.2.Provided := by
  unfold Site.ensureListeners at ok ⊢
  rw [if_pos allowed] at ok ⊢
  refine ensureEach_provided entered.forgetListeners (fun l mem => ?_) allowed (List.Subset.refl _)
    (fun a wanted past => absurd wanted past) ok
  obtain ⟨c, found⟩ := Option.isSome_iff_exists.1 (List.mem_filter.1 mem).2
  rw [map_fst_keys]
  exact List.mem_map.2 ⟨c, connection?_mem found, (connection?_split found).1⟩

theorem Provided.reconcile (provided : s.Provided) {policy : KindSet} (allowed : .clientConnect ∈ policy) :
    ({ s with reactor := (s.reactor.reconcile policy .all).2 } : Site).Provided := by
  refine ⟨provided.entered.reconcile policy, fun l mem => ?_, fun a wanted past => ?_⟩
  · rw [Reactor.reconcile, (checkAll_keys policy _ s.reactor).1]
    exact provided.linked l mem
  · obtain ⟨id, entry, later⟩ := provided.awaits a wanted past
    refine ⟨id, entry, fun vacant => later ?_⟩
    rwa [Reactor.reconcile, fdOf?_checkAll allowed] at vacant

theorem Provided.ensureListeners (provided : s.Provided) : s.ensureListeners = (.ok (), s) := by
  have kept : s.forgetListeners = s := by
    unfold Site.forgetListeners
    rw [List.filter_eq_self.2 fun l mem => ?_]
    obtain ⟨c, found⟩ := exists_connection? (provided.linked l mem)
    rw [found]
    rfl
  have each {addresses : List Net.Address} (wanted : addresses ⊆ s.state.settings.listenAddresses) :
      s.ensureEach addresses = (.ok (), s) := by
    induction addresses with
    | nil => rfl
    | cons address addresses ih =>
        obtain ⟨id, entry, later⟩ := provided.awaits address (wanted List.mem_cons_self) List.not_mem_nil
        have done : s.ensureListener address = (.ok (), s) := by
          unfold Site.ensureListener
          rw [provided.entered.find entry]
          dsimp only
          rw [if_neg]
          intro vacant
          obtain ⟨c, found, free⟩ := (Option.any_eq_true _ _).1 vacant
          obtain ⟨b, among, -⟩ := later (by simp [fdOf?, found, Option.isNone_iff_eq_none.1 free])
          exact List.not_mem_nil among
        rw [Site.ensureEach, done]
        exact ih fun a mem => wanted (List.mem_cons_of_mem _ mem)
  unfold Site.ensureListeners
  split
  · rw [kept]
    exact each (List.Subset.refl _)
  · rfl

theorem applyLevel_ok {change : Filter.LevelChange} (ok : s.applyLevel level = (.ok change, t)) :
    ∃ filter u, s.state.filter.changeLevel level = .ok (change, filter) ∧
      (s.setFilter filter).ensureListeners = (.ok (), u) ∧
      (u.reactor.reconcile u.state.filter.allowed .all).1 = .ok () ∧
      t = { u with reactor := (u.reactor.reconcile u.state.filter.allowed .all).2 } := by
  unfold Site.applyLevel at ok
  cases changed : s.state.filter.changeLevel level with
  | error e =>
      rw [changed] at ok
      cases ok
  | ok outcome =>
      obtain ⟨change', filter⟩ := outcome
      rw [changed] at ok
      dsimp only at ok
      split at ok <;> rename_i ensured
      · cases ok
      · rename_i u
        rw [react_eq] at ok
        split at ok <;> rename_i done <;> obtain ⟨answer, rfl⟩ := Prod.mk.inj done
        · cases ok
        · cases ok
          exact ⟨filter, u, rfl, ensured, ok_of_mapError answer, rfl⟩

theorem applyLevel_eq_self {change : Filter.LevelChange}
    (unchanged : s.state.filter.changeLevel level = .ok (change, s.state.filter)) (ready : s.ensureListeners = (.ok (), s))
    (aligned : s.reactor.reconcile s.state.filter.allowed .all = (.ok (), s.reactor)) :
    s.applyLevel level = (.ok change, s) := by
  have same : s.setFilter s.state.filter = s := rfl
  have still : s.react (Reactor.reconcile s.state.filter.allowed .all) = (.ok (), s) := by
    rw [react_eq, aligned]
    rfl
  unfold Site.applyLevel
  rw [unchanged]
  dsimp only
  rw [same, ready]
  dsimp only
  rw [still]

theorem Entered.applyLevel_again (entered : s.Entered) {change : Filter.LevelChange}
    (ok : s.applyLevel level = (.ok change, t)) :
    ∃ again, t.applyLevel level = (.ok again, t) ∧ again.Idle level := by
  obtain ⟨filter, u, changed, ensured, answer, rfl⟩ := applyLevel_ok ok
  obtain ⟨again, unchanged, idle⟩ := Filter.MessageFilter.changeLevel_again changed
  have moved : (s.setFilter filter).Entered := entered.of_connections rfl rfl rfl
  have provided := ensureListeners_provided moved
  have state := (ensureListeners_extends (s.setFilter filter)).state
  rw [ensured] at provided state
  obtain rfl : u.state.filter = filter := congrArg State.filter state
  refine ⟨again, applyLevel_eq_self unchanged ?_ (reconcile_again answer), idle⟩
  by_cases allowed : .clientConnect ∈ u.state.filter.allowed
  · exact ((provided allowed rfl).reconcile allowed).ensureListeners
  · unfold Site.ensureListeners
    rw [if_neg allowed]

theorem Entered.of_sublist (entered : s.Entered) {r : Reactor} (homed : r.Each Homed) (keys : r.keys.Sublist s.reactor.keys) :
    ({ s with reactor := r } : Site).Entered :=
  entered.of_keys homed (fun _ mem _ => keys.subset mem) rfl rfl

theorem Entered.register (entered : s.Entered) {kind : Kind} (other : kind ≠ .clientConnect) (policy : KindSet)
    (e : Endpoint) (wanted : Flags) :
    ({ s with reactor := (s.reactor.register policy kind (.ofEndpoint e) wanted).2 } : Site).Entered := by
  refine entered.of_keys (entered.homed.register (lasting_homed policy) kind e wanted) (fun key mem client => ?_) rfl rfl
  rcases mem_register_keys mem with old | rfl
  · exact old
  · exact absurd client other

theorem entered_law : Daemon.Law Entered where
  outside _ _ _ entered := entered.of_connections rfl rfl rfl
  register _ _ _ client entered := entered.register client _ _ _
  level level entered := entered.applyLevel level

theorem Entered.move {kind : Kind} {id : Nat} {s t : Scene State} (move : Handlers.Move kind id s t)
    (coherent : s.Coherent id) (entered : (Handlers.siteOf s).Entered) : (Handlers.siteOf t).Entered := by
  cases move with
  | use same grows houses => exact entered.of_connections rfl rfl rfl
  | note stats notices exit => exact entered.of_connections rfl rfl rfl
  | @accept host e peer grows houses isOpen new other admits =>
      have grown : (⟨s.state, { s.reactor with host }⟩ : Site).Entered := entered.of_connections rfl rfl rfl
      exact grown.register (Handlers.admitted?_standing admits).1 _ e _
  | unregister peer =>
      exact entered.of_sublist (entered.homed.unregister (lasting_homed ∅) id) ((coherent.unregister_keys id).1 ▸ List.eraseP_sublist)
  | forward bytes =>
      refine entered.of_sublist (entered.homed.sendTo (lasting_homed ∅) Handlers.consumers bytes) ?_
      exact (coherent.sendTo_keys Handlers.consumers bytes) ▸ strike_sublist _ _
  | level n leads => exact entered.applyLevel n

theorem entered_keeping : Keeping fun _ s => s.Entered where
  roused _ wait entered := entered.of_connections (roused_spec wait _).1 rfl rfl
  removal coherent id entered :=
    entered.of_sublist (entered.homed.unregister (lasting_homed ∅) id) ((coherent.unregister_keys id).1 ▸ List.eraseP_sublist)
  opening _ _ _ _ entered := by
    refine entered.of_sublist (entered.homed.update fun _ _ homed => homed) ?_
    rw [update_keys Connection.lend fun _ => rfl]
  deed deed coherent entered := entered.move deed.move coherent
  restore held _ entered := by
    obtain ⟨e, own⟩ := Option.isSome_iff_exists.1 held
    refine entered.of_sublist (entered.homed.restore (lasting_homed ∅) fun c _ _ vacant => ?_) ?_
    · rw [Connection.hold, Receiver.fd?, own] at vacant
      cases vacant
    · rw [(restore_keys _ _ _).1]

end Site

namespace Daemon

open Site

variable {settings : Settings} {filter : Filter.MessageFilter} {entries : List Entry} {d : Daemon}

theorem History.entered (history : History settings filter entries d) : d.site.Entered := by
  induction history with
  | start sound ok =>
      exact (start_kept entered_law sound ⟨List.forall_mem_nil _, List.forall_mem_nil _, List.nodup_nil⟩ ok).lawful
  | runOnce before wait ih => exact entered_keeping.round (History.reachable before).coherent ih wait
  | setLevel before level ih => exact ih.applyLevel level
  | beside before elapses ih =>
      obtain ⟨notices, exit, state⟩ := elapses.state
      exact ih.of_connections (by rw [elapses.reactor.rest]) (by rw [state]) (by rw [state])
  | shutdown before ih =>
      rcases shutdown_cases (History.reachable before) with ⟨same, -⟩ | ⟨-, state, -, empty⟩
      · rwa [same]
      · exact ih.of_keys (by simp [Reactor.Each, empty]) (by simp [Reactor.keys, empty]) (congrArg State.listeners state)
          (congrArg State.settings state)

/-- Wherever a history comes through, be it in the middle of a handler's call, a level that is put in force leaves
nothing to do: applied again at once it is no change, and the site is exactly what it was, the host with it. -/
theorem Visited.level_again {running : Option Kind} {s t : Site} (visited : Visited settings filter running s)
    {level : Nat} {change : Filter.LevelChange} (ok : s.applyLevel level = (.ok change, t)) :
    ∃ again, t.applyLevel level = (.ok again, t) ∧ again.Idle level := by
  obtain ⟨-, entered⟩ := visited.keeps entered_keeping (fun move => Entered.move move) fun _ _ history =>
    history.entered
  exact entered.applyLevel_again ok

end Daemon

namespace Tearing

open Daemon

theorem level_stays : ∃ change t again, lowered.site.applyLevel 100 = (.ok change, t) ∧ change.segmentChanged = true ∧
    t.reactor.host.next = lowered.site.reactor.host.next + 2 ∧ t.applyLevel 100 = (.ok again, t) ∧ again.Idle 100 := by
  have sound : ({} : Host).Sound := ⟨by decide, by rintro e ⟨⟩⟩
  have ok : (Daemon.start settings gated {}).1 = .ok () := by decide +kernel
  have visited : Visited settings gated none lowered.site := .between (.setLevel (.runOnce (.start sound ok) _) 40)
  have accepted : (lowered.site.applyLevel 100).1.toOption.any (·.segmentChanged) = true := by decide +kernel
  obtain ⟨change, done, changed⟩ := (Option.any_eq_true _ _).1 accepted
  have applied : lowered.site.applyLevel 100 = (.ok change, (lowered.site.applyLevel 100).2) :=
    Prod.ext (Reactor.toOption_eq_some.1 done) rfl
  obtain ⟨again, same, idle⟩ := visited.level_again applied
  exact ⟨change, _, again, applied, changed, by decide +kernel, same, idle⟩

end Tearing

end TraceGate
