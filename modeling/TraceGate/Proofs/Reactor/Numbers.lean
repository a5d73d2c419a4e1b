import Mathlib.Data.List.Range
import Mathlib.Data.Nat.ModEq
import TraceGate.Proofs.Reactor.Reachable
import TraceGate.Proofs.Reactor.Upkeep

namespace TraceGate

open Connection Relation

namespace Ids

def after : (n : Nat) → Ids → Ids
  | 0, ids => ids
  | n + 1, ids => ids.take.2.after n

def period : Nat := 0xFFFFFFFF

/-- The number at a place of the sequence that starts with 1. -/
def numberAt (k : Nat) : Nat := k % period + 1

def Stands (k : Nat) (ids : Ids) : Prop :=
  ids.next % idBound = numberAt k ∨ ids.next % idBound = 0 ∧ k % period = 0

variable {ids : Ids} {k : Nat}

theorem after_add (m n : Nat) (ids : Ids) : ids.after (m + n) = (ids.after m).after n := by
  induction m generalizing ids with
  | zero => simp [after]
  | succ m ih => simp [Nat.succ_add, after, ih]

theorem takeMany_add (m n : Nat) (ids : Ids) :
    ids.takeMany (m + n) = ids.takeMany m ++ (ids.after m).takeMany n := by
  induction m generalizing ids with
  | zero => simp [takeMany, after]
  | succ m ih => simp [Nat.succ_add, takeMany, after, ih]

theorem next_add_le (n : Nat) (ids : Ids) : ids.next + n ≤ (ids.after n).next := by
  induction n generalizing ids with
  | zero => exact le_rfl
  | succ n ih =>
      have step : ids.next < ids.take.2.next := by
        unfold Ids.take
        split <;> simp
      have later := ih ids.take.2
      rw [after]
      omega

theorem eq_of_after {m n : Nat} (same : ids.after m = ids.after n) : m = n := by
  have apart (m k : Nat) (same : ids.after m = ids.after (m + k)) : k = 0 := by
    have later := next_add_le k (ids.after m)
    rw [← after_add, ← same] at later
    omega
  rcases Nat.le_total m n with le | le
  · obtain ⟨k, rfl⟩ := Nat.exists_eq_add_of_le le
    rw [apart m k same, Nat.add_zero]
  · obtain ⟨k, rfl⟩ := Nat.exists_eq_add_of_le le
    rw [apart n k same.symm, Nat.add_zero]

theorem Stands.take (stands : ids.Stands k) : ids.take.1 = numberAt k ∧ ids.take.2.Stands (k + 1) := by
  simp only [Stands, numberAt, Ids.take, idBound, period] at stands ⊢
  by_cases zero : ids.next % 0x100000000 = 0
  · simp only [zero, if_true]
    omega
  · simp only [zero, if_false]
    omega

theorem Stands.takeMany (stands : ids.Stands k) (n : Nat) : ids.takeMany n = (List.range' k n).map numberAt := by
  induction n generalizing ids k with
  | zero => rfl
  | succ n ih =>
      obtain ⟨number, later⟩ := stands.take
      rw [Ids.takeMany, List.range'_succ, List.map_cons, number, ih later]

theorem takeMany_eq (n : Nat) : ({} : Ids).takeMany n = (List.range n).map numberAt := by
  have start : ({} : Ids).Stands 0 := Or.inl (by decide)
  rw [start.takeMany, List.range_eq_range']

theorem numberAt_eq_iff {i j : Nat} : numberAt i = numberAt j ↔ i ≡ j [MOD period] := by
  simp [numberAt, Nat.ModEq]

end Ids

def Connection.key (c : Connection) : Nat × Kind := (c.id, c.kind)

def strike (keys : List (Nat × Kind)) (ids : List Nat) : List (Nat × Kind) :=
  ids.foldl (fun keys id => keys.eraseP (·.1 == id)) keys

theorem strike_sublist (keys : List (Nat × Kind)) (ids : List Nat) : (strike keys ids).Sublist keys := by
  induction ids generalizing keys with
  | nil => exact List.Sublist.refl keys
  | cons id ids ih => exact (ih _).trans List.eraseP_sublist

theorem strike_all (keys : List (Nat × Kind)) : strike keys (keys.map Prod.fst) = [] := by
  induction keys with
  | nil => rfl
  | cons key keys ih =>
      rw [strike, List.map_cons, List.foldl_cons, List.eraseP_cons_of_pos (by simp)]
      exact ih

namespace Reactor

def keys (r : Reactor) : List (Nat × Kind) := r.connections.map Connection.key

variable {r r' r'' : Reactor} {id : Nat} {loan : Option Loan}

theorem map_fst_keys (r : Reactor) : r.keys.map Prod.fst = r.connections.map (·.id) := by
  simp [keys, Connection.key]

def Alone (id : Nat) (r : Reactor) : Prop := ∀ key ∈ r.keys.eraseP (·.1 == id), key.1 ≠ id

instance (id : Nat) (r : Reactor) : Decidable (r.Alone id) := inferInstanceAs (Decidable (∀ key ∈ _, _))

theorem Alone.of_prefix (alone : r'.Alone id) (older : r.keys <+: r'.keys) : r.Alone id :=
  fun key mem => alone key ((older.sublist.eraseP (p := (·.1 == id))).subset mem)

theorem Alone.ne (alone : r.Alone id) {d : Connection} (mem : d ∈ r.connections.eraseP (·.id == id)) : d.id ≠ id := by
  refine alone d.key ?_
  have keys : r.keys.eraseP (·.1 == id) = (r.connections.eraseP (·.id == id)).map Connection.key := by
    rw [Reactor.keys, List.eraseP_map]
    rfl
  rw [keys]
  exact List.mem_map_of_mem mem

theorem Alone.connection? {c : Connection} (alone : r.Alone c.id) (mem : c ∈ r.connections) :
    r.connection? c.id = some c := by
  cases found : r.connection? c.id with
  | none => exact absurd (List.find?_eq_none.1 found c mem) (by simp)
  | some d =>
      obtain ⟨same, before, after, split, ahead⟩ := connection?_split found
      rw [split, List.mem_append, List.mem_cons] at mem
      rcases mem with mem | rfl | mem
      · exact absurd (beq_self_eq_true c.id) (ahead c mem)
      · rfl
      · refine absurd rfl (alone.ne (d := c) ?_)
        rw [split, List.eraseP_append_right _ ahead, List.eraseP_cons_of_pos (by simpa using same)]
        exact List.mem_append_right _ mem

theorem exists_connection? (present : id ∈ r.keys.map Prod.fst) : ∃ c, r.connection? id = some c := by
  rw [map_fst_keys] at present
  obtain ⟨c, mem, rfl⟩ := List.mem_map.1 present
  apply Option.isSome_iff_exists.1
  rw [connection?, List.find?_isSome]
  exact ⟨c, mem, beq_self_eq_true c.id⟩

theorem update_keys (f : Connection → Connection) (same : ∀ d, (f d).key = d.key) (r : Reactor) (id : Nat) :
    (r.update id f).keys = r.keys :=
  map_updateFirst Connection.key same

theorem unwatchOf_keys (r : Reactor) (c : Connection) : (r.unwatchOf c).keys = r.keys := by
  unfold unwatchOf
  cases c.fd <;> rfl

theorem deactivate_keys (r : Reactor) (c : Connection) : (r.deactivate c).keys = r.keys := by
  unfold deactivate
  dsimp only
  split
  · exact (update_keys Connection.shut (fun _ => rfl) _ _).trans (unwatchOf_keys r c)
  · exact (update_keys Connection.pause (fun _ => rfl) _ _).trans (unwatchOf_keys r c)

theorem activate_keys (r : Reactor) (c : Connection) : (r.activate c).2.keys = r.keys := by
  unfold activate
  split
  · rfl
  · split
    · rfl
    · exact update_keys Connection.start (fun _ => rfl) _ _

theorem checkActivate_keys (r : Reactor) (id : Nat) (policy : KindSet) (transition : Transition) :
    (r.checkActivate id policy transition).2.keys = r.keys := by
  unfold Reactor.checkActivate
  split
  · rfl
  · dsimp only
    split
    · split
      · rfl
      · exact deactivate_keys r _
    · split
      · exact activate_keys r _
      · rfl
    · rfl

theorem checkAll_keys (policy : KindSet) (ids : List Nat) (r : Reactor) :
    (r.checkAll policy ids).2.keys = r.keys ∧ (r.checkAll policy ids).2.ids = r.ids := by
  induction ids generalizing r with
  | nil => exact ⟨rfl, rfl⟩
  | cons id ids ih =>
      have keys := checkActivate_keys r id policy .activate
      have counter := checkActivate_ids r id policy .activate
      unfold Reactor.checkAll
      split <;> rename_i eq <;> rw [eq] at keys counter
      · exact ⟨(ih _).1.trans keys, (ih _).2.trans counter⟩
      · exact ⟨keys, counter⟩

theorem Coherent.unregister_keys (coherent : r.Coherent loan) (id : Nat) :
    (r.unregister id).2.keys = r.keys.eraseP (·.1 == id) ∧ (r.unregister id).2.ids = r.ids := by
  obtain ⟨connections, counter⟩ := coherent.unregister_connections id
  refine ⟨?_, counter⟩
  rw [keys, keys, connections, List.eraseP_map]
  rfl

theorem Coherent.unregisterAll_keys (coherent : r.Coherent loan) (ids : List Nat) :
    (r.unregisterAll ids).keys = strike r.keys ids ∧ (r.unregisterAll ids).ids = r.ids := by
  induction ids generalizing r with
  | nil => exact ⟨rfl, rfl⟩
  | cons id ids ih =>
      obtain ⟨keys, counter⟩ := coherent.unregister_keys id
      obtain ⟨struck, counter'⟩ := ih (coherent.unregister id).1
      rw [keys] at struck
      exact ⟨struck, counter'.trans counter⟩

theorem add_keys (r : Reactor) (ids : Ids) (c : Connection) :
    (({ r with ids } : Reactor).add c).keys = r.keys ++ [c.key] := by
  simp [Reactor.add, Reactor.keys]

theorem register_keys (r : Reactor) (policy : KindSet) (kind : Kind) (receiver : Receiver) (wanted : Flags) :
    ((r.register policy kind receiver wanted).2.ids = r.ids ∧ (r.register policy kind receiver wanted).2.keys = r.keys) ∨
    ((r.register policy kind receiver wanted).2.ids = r.ids.take.2 ∧
      ((r.register policy kind receiver wanted).2.keys = r.keys ∨
        (r.register policy kind receiver wanted).2.keys = r.keys ++ [(r.ids.take.1, kind)])) := by
  unfold Reactor.register
  split
  · exact Or.inl ⟨rfl, rfl⟩
  · right
    dsimp only
    generalize named : Connection.new r.ids.take.1 kind receiver wanted = c
    have added : (({ r with ids := r.ids.take.2 } : Reactor).add c).keys = r.keys ++ [(r.ids.take.1, kind)] := by
      rw [add_keys, ← named]
      rfl
    have keys := checkActivate_keys (({ r with ids := r.ids.take.2 } : Reactor).add c) r.ids.take.1 policy .activate
    have counter := checkActivate_ids (({ r with ids := r.ids.take.2 } : Reactor).add c) r.ids.take.1 policy .activate
    split <;> rename_i eq <;> rw [eq] at keys counter
    · exact ⟨counter, Or.inr (keys.trans added)⟩
    · refine ⟨counter, Or.inl ?_⟩
      rename_i r'
      change (r'.connections.dropLast).map Connection.key = r.keys
      rw [List.map_dropLast]
      change r'.keys.dropLast = r.keys
      rw [keys, added, List.dropLast_concat]

theorem mem_register_keys {policy : KindSet} {kind : Kind} {receiver : Receiver} {wanted : Flags} {key : Nat × Kind}
    (mem : key ∈ (r.register policy kind receiver wanted).2.keys) : key ∈ r.keys ∨ key = (r.ids.take.1, kind) := by
  rcases register_keys r policy kind receiver wanted with ⟨-, same⟩ | ⟨-, same | more⟩
  · exact Or.inl (same ▸ mem)
  · exact Or.inl (same ▸ mem)
  · exact (List.mem_append.1 (more ▸ mem)).imp_right List.mem_singleton.1

theorem Coherent.checkActivate_idle (coherent : r.Coherent loan) (present : (r.connection? id).isSome) :
    (r.checkActivate id ∅ .activate).1 = .ok () := by
  obtain ⟨c, found⟩ := Option.isSome_iff_exists.1 present
  rcases coherent.checkActivate_cases found ∅ .activate with ⟨-, eq⟩ | ⟨-, eq⟩ | ⟨⟨-, wanted, -⟩, -⟩
  · rw [eq]
  · rw [eq]
  · simp at wanted

theorem Coherent.register_idle (coherent : r.Coherent loan) {e : Endpoint} (loose : r.Loose loan e) (kind : Kind)
    (wanted : Flags) : (r.register ∅ kind (.ofEndpoint e) wanted).2.ids = r.ids.take.2 ∧
      (r.register ∅ kind (.ofEndpoint e) wanted).2.keys = r.keys ++ [(r.ids.take.1, kind)] := by
  have loose : ∀ e', (Receiver.ofEndpoint e).endpoint = some e' → r.Loose loan e' := by
    rintro _ ⟨⟩
    exact loose
  have added := coherent.addNew loose r.ids.take.2 r.ids.take.1 kind wanted
  have grown := add_keys r r.ids.take.2 (.new r.ids.take.1 kind (.ofEndpoint e) wanted)
  have present : ((({ r with ids := r.ids.take.2 } : Reactor).add
      (.new r.ids.take.1 kind (.ofEndpoint e) wanted)).connection? r.ids.take.1).isSome := by
    simp [connection?, Reactor.add, Connection.new]
  have counted : (({ r with ids := r.ids.take.2 } : Reactor).add
      (.new r.ids.take.1 kind (.ofEndpoint e) wanted)).ids = r.ids.take.2 := rfl
  unfold Reactor.register
  rw [if_neg (by simp [Receiver.isReleased, Receiver.ofEndpoint])]
  dsimp only
  generalize ({ r with ids := r.ids.take.2 } : Reactor).add
    (.new r.ids.take.1 kind (.ofEndpoint e) wanted) = q at added grown present counted
  have done := added.checkActivate_idle present
  have keys := (checkActivate_keys q r.ids.take.1 ∅ .activate).trans grown
  have counter := (checkActivate_ids q r.ids.take.1 ∅ .activate).trans counted
  split <;> rename_i eq <;> rw [eq] at done keys counter
  · exact ⟨counter, keys⟩
  · cases done

theorem assign_keys (r : Reactor) (id : Nat) (e : Endpoint) :
    (r.assign id e).2.keys = r.keys ∧ (r.assign id e).2.ids = r.ids := by
  unfold Reactor.assign
  dsimp only
  split
  · exact ⟨rfl, rfl⟩
  · split
    · exact ⟨rfl, rfl⟩
    · split
      · exact ⟨rfl, rfl⟩
      · exact ⟨update_keys (·.hold _) (fun _ => rfl) _ _, rfl⟩

theorem restore_keys (r : Reactor) (id : Nat) (receiver : Receiver) :
    (r.restore id receiver).keys = r.keys ∧ (r.restore id receiver).ids = r.ids := by
  have unwatched (q : Reactor) (c : Connection) : (q.unwatchOf c).ids = q.ids := by
    unfold unwatchOf
    cases c.fd <;> rfl
  unfold Reactor.restore
  split
  · exact ⟨rfl, rfl⟩
  · rename_i c _
    have back : ((r.discardHeld c).update id (·.hold receiver)).keys = r.keys :=
      update_keys (·.hold receiver) (fun _ => rfl) _ _
    dsimp only
    split
    · split
      · exact ⟨(unwatchOf_keys _ c).trans back, unwatched _ c⟩
      · refine ⟨?_, unwatched _ c⟩
        exact (update_keys Connection.pause (fun _ => rfl) _ _).trans ((unwatchOf_keys _ c).trans back)
    · exact ⟨back, rfl⟩

/-- From `r` to `r'` connections keep number, kind and order or are gone, and new ones come last, with numbers
that were taken since, in their order. -/
def Enrols (r r' : Reactor) : Prop :=
  ∃ n new, r'.ids = r.ids.after n ∧ (new.map Prod.fst).Sublist (r.ids.takeMany n) ∧ r'.keys.Sublist (r.keys ++ new)

theorem Enrols.of_sublist (counter : r'.ids = r.ids) (sublist : r'.keys.Sublist r.keys) : Enrols r r' :=
  ⟨0, [], counter, List.nil_sublist _, by simpa using sublist⟩

theorem Enrols.of_keys (same : r'.keys = r.keys ∧ r'.ids = r.ids) : Enrols r r' :=
  .of_sublist same.2 (same.1 ▸ List.Sublist.refl _)

theorem Enrols.refl (r : Reactor) : Enrols r r := .of_keys ⟨rfl, rfl⟩

theorem Enrols.trans (first : Enrols r r') (second : Enrols r' r'') : Enrols r r'' := by
  obtain ⟨m, new, counter, given, keys⟩ := first
  obtain ⟨n, new', counter', given', keys'⟩ := second
  refine ⟨m + n, new ++ new', ?_, ?_, ?_⟩
  · rw [counter', counter, Ids.after_add]
  · rw [counter] at given'
    rw [List.map_append, Ids.takeMany_add]
    exact given.append given'
  · rw [← List.append_assoc]
    exact keys'.trans (keys.append_right new')

theorem Enrols.next_le (enrols : Enrols r r') : r.ids.next ≤ r'.ids.next := by
  obtain ⟨n, -, counter, -⟩ := enrols
  rw [counter]
  exact Nat.le_of_add_right_le (Ids.next_add_le n r.ids)

theorem Enrols.register (r : Reactor) (policy : KindSet) (kind : Kind) (receiver : Receiver) (wanted : Flags) :
    Enrols r (r.register policy kind receiver wanted).2 := by
  rcases register_keys r policy kind receiver wanted with ⟨counter, keys⟩ | ⟨counter, keys⟩
  · exact .of_keys ⟨keys, counter⟩
  · refine ⟨1, [(r.ids.take.1, kind)], counter, by simp [Ids.takeMany], ?_⟩
    rcases keys with same | more
    · rw [same]
      exact List.sublist_append_left _ _
    · rw [more]

theorem Coherent.unregister_enrols (coherent : r.Coherent loan) (id : Nat) : Enrols r (r.unregister id).2 := by
  obtain ⟨keys, counter⟩ := coherent.unregister_keys id
  exact .of_sublist counter (keys ▸ List.eraseP_sublist)

theorem Coherent.unregisterAll_enrols (coherent : r.Coherent loan) (ids : List Nat) :
    Enrols r (r.unregisterAll ids) := by
  obtain ⟨keys, counter⟩ := coherent.unregisterAll_keys ids
  exact .of_sublist counter (keys ▸ strike_sublist r.keys ids)

theorem Operation.enrols {gives : Nat → Endpoint → Prop} {error : Option EventError}
    (operation : Operation gives loan r error r') (coherent : r.Coherent loan) : Enrols r r' := by
  cases operation with
  | register policy kind receiver wanted loose given => exact .register r policy kind receiver wanted
  | unregister id => exact coherent.unregister_enrols id
  | checkActivate id policy transition =>
      exact .of_keys ⟨checkActivate_keys r id policy transition, checkActivate_ids r id policy transition⟩
  | reconcile policy kinds => exact .of_keys (checkAll_keys policy _ r)
  | assign id e loose given => exact .of_keys (assign_keys r id e)
  | sendTo kinds bytes =>
      have grown := coherent.grow (sendEach_grows bytes (r.connections.filter fun c => c.IsActive ∧ c.kind ∈ kinds) _)
      exact grown.unregisterAll_enrols _
  | cleanup => exact coherent.unregisterAll_enrols _

theorem Elapses.enrols (elapses : Elapses r r') : Enrols r r' := by
  apply Enrols.of_keys
  rw [elapses.rest]
  exact ⟨rfl, rfl⟩

end Reactor

theorem Scene.Step.enrols {σ : Type} {gives : Nat → Endpoint → Prop} {id : Nat} {s s' : Scene σ}
    (step : Scene.Step gives id s s') (coherent : s.Coherent id) : Reactor.Enrols s.reactor s'.reactor := by
  cases step with
  | operation operation => exact operation.enrols coherent
  | outside elapses isOpen given => exact elapses.enrols

namespace Reactor

variable {σ : Type} {gives : Nat → Endpoint → Prop} {handlers : Kind → Handler σ} {r r' q : Reactor} {state : σ}

theorem Coherent.attend_enrols (coherent : r.Coherent none) (acts : ∀ kind, (handlers kind).Acts gives)
    (s : Sighting) (state : σ) : Enrols r (r.attend handlers s state).2.1 := by
  refine coherent.attend_induction (I := fun _ q => Enrols r q) acts (.refl r) ?_ ?_ ?_ ?_ s state
  · exact fun id => coherent.unregister_enrols id
  · exact fun c _ _ _ => .of_keys ⟨update_keys Connection.lend (fun _ => rfl) r c.id, rfl⟩
  · exact fun _ _ _ step coherent enrols => enrols.trans (step.enrols coherent)
  · exact fun _ _ _ enrols => enrols.trans (.of_keys (restore_keys _ _ _))

theorem Coherent.round_enrols (coherent : r.Coherent none) (wait : Wait) (acts : ∀ kind, (handlers kind).Acts gives)
    (state : σ) : Enrols r (r.round wait handlers state).2.1 := by
  have step : ∀ s (q : Reactor) (state : σ), q.Coherent none ∧ Enrols r q →
      ((q.attend handlers s state).2.1.Coherent none ∧ Enrols r (q.attend handlers s state).2.1) ∧
        ∀ error, (q.attend handlers s state).1 = .error error → True := by
    rintro s q state ⟨coherent, enrols⟩
    exact ⟨⟨(coherent.attend acts s state).1, enrols.trans (coherent.attend_enrols acts s state)⟩, fun _ _ => trivial⟩
  suffices (r.round wait handlers state).2.1.Coherent none ∧ Enrols r (r.round wait handlers state).2.1 from this.2
  have record : ∀ seen, ({ r with table := r.table.record seen } : Reactor).Coherent none ∧
      Enrols r { r with table := r.table.record seen } := fun seen => ⟨coherent.record seen, .of_keys ⟨rfl, rfl⟩⟩
  have awoken : ∀ seen, (r.awoken seen).Coherent none ∧ Enrols r (r.awoken seen) :=
    fun seen => ⟨coherent.awoken seen, .of_keys ⟨rfl, rfl⟩⟩
  exact (round_invariant step record awoken ⟨coherent, .refl r⟩ fun _ _ => trivial).1

/-- No number that was given from `r` to `r'` was given twice, or is that of a connection of `r`. -/
def Unrepeated (r r' : Reactor) : Prop :=
  ∃ n, r'.ids = r.ids.after n ∧ (r.connections.map (·.id) ++ r.ids.takeMany n).Nodup

variable {c : Connection}

theorem Unrepeated.before (numbered : Unrepeated r r') (first : Enrols r q) (second : Enrols q r') :
    Unrepeated r q := by
  obtain ⟨n, counter, nodup⟩ := numbered
  obtain ⟨m, -, before, -⟩ := first
  obtain ⟨k, -, after, -⟩ := second
  obtain rfl : n = m + k := Ids.eq_of_after (by rw [← counter, after, before, Ids.after_add])
  rw [Ids.takeMany_add, ← List.append_assoc] at nodup
  exact ⟨m, before, (List.nodup_append.1 nodup).1⟩

theorem Unrepeated.nodup (numbered : Unrepeated r r') (enrols : Enrols r r') : (r'.connections.map (·.id)).Nodup := by
  obtain ⟨n, counter, nodup⟩ := numbered
  obtain ⟨m, new, counter', given, keys⟩ := enrols
  obtain rfl : n = m := Ids.eq_of_after (counter.symm.trans counter')
  have ids := keys.map Prod.fst
  rw [List.map_append, map_fst_keys, map_fst_keys] at ids
  exact (ids.trans (given.append_left _)).nodup nodup

theorem Unrepeated.key (numbered : Unrepeated r r') (enrols : Enrols r r') (mem : c ∈ r'.connections)
    (old : c.id ∈ r.connections.map (·.id)) : ∃ d ∈ r.connections, d.key = c.key := by
  obtain ⟨n, counter, nodup⟩ := numbered
  obtain ⟨m, new, counter', given, keys⟩ := enrols
  obtain rfl : n = m := Ids.eq_of_after (counter.symm.trans counter')
  have known : c.key ∈ r.keys ++ new := keys.subset (List.mem_map_of_mem mem)
  rcases List.mem_append.1 known with had | joined
  · exact List.mem_map.1 had
  · have fresh : c.id ∈ r.ids.takeMany n := given.subset (List.mem_map_of_mem (f := Prod.fst) joined)
    exact absurd rfl ((List.nodup_append.1 nodup).2.2 c.id old c.id fresh)

theorem Unrepeated.gone (numbered : Unrepeated r r') (first : Enrols r q) (second : Enrols q r') {id : Nat}
    (old : id ∈ r.connections.map (·.id)) (free : id ∉ q.connections.map (·.id)) :
    id ∉ r'.connections.map (·.id) := by
  obtain ⟨n, counter, nodup⟩ := numbered
  obtain ⟨m, -, before, -⟩ := first
  obtain ⟨k, new, after, given, keys⟩ := second
  obtain rfl : n = m + k := Ids.eq_of_after (by rw [← counter, after, before, Ids.after_add])
  intro back
  rw [← map_fst_keys] at back
  have known := (keys.map Prod.fst).subset back
  rw [List.map_append, map_fst_keys] at known
  rcases List.mem_append.1 known with had | joined
  · exact free had
  · have fresh : id ∈ r.ids.takeMany (m + k) := by
      rw [Ids.takeMany_add, ← before]
      exact List.mem_append_right _ (given.subset joined)
    exact absurd rfl ((List.nodup_append.1 nodup).2.2 id old id fresh)

/-- What a reactor comes to be by its operations, its rounds and the world outside, however long that goes on. -/
inductive Becomes (r : Reactor) : Reactor → Prop
  | refl : Becomes r r
  | operation {q r' : Reactor} {error : Option EventError} (before : Becomes r q)
      (operation : Operation anyGift none q error r') : Becomes r r'
  | outside {q r' : Reactor} (before : Becomes r q) (elapses : Elapses q r') : Becomes r r'
  | round {σ : Type} {q : Reactor} {handlers : Kind → Handler σ} (before : Becomes r q) (wait : Wait)
      (acts : ∀ kind, (handlers kind).Acts anyGift) (state : σ) : Becomes r (q.round wait handlers state).2.1

theorem Becomes.enrols (becomes : Becomes r r') (coherent : r.Coherent none) : r'.Coherent none ∧ Enrols r r' := by
  induction becomes with
  | refl => exact ⟨coherent, .refl r⟩
  | operation _ operation ih =>
      have before := ih.1
      exact ⟨(operation.coherent before).1, ih.2.trans (operation.enrols before)⟩
  | outside _ elapses ih =>
      refine ⟨elapses.coherent ih.1 rfl ?_, ih.2.trans elapses.enrols⟩
      rintro _ ⟨⟩
  | round _ wait acts state ih =>
      have before := ih.1
      exact ⟨(before.round wait acts state).1, ih.2.trans (before.round_enrols wait acts state)⟩

/-- A reactor that starts without connections numbers them by the cycle. After `n` numbers were taken, the connections
that are left have the numbers at some of the first `n` places. None is zero, and two are the same exactly if
their places are whole cycles apart, which cannot be before the cycle has been gone through. -/
theorem Becomes.numbers {host : Host} (sound : host.Sound) (room : Option Nat)
    (becomes : Becomes { host, table := { Table.empty with room } } r) :
    (∀ c ∈ r.connections, c.id ≠ 0) ∧
    ∃ (n : Nat) (places : List Nat), r.ids = ({} : Ids).after n ∧ places.Sublist (List.range n) ∧
      r.connections.map (·.id) = places.map Ids.numberAt ∧
      ((r.connections.map (·.id)).Nodup ↔ places.Pairwise fun i j => ¬i ≡ j [MOD Ids.period]) ∧
      (n ≤ Ids.period → (r.connections.map (·.id)).Nodup) := by
  obtain ⟨n, new, counter, given, keys⟩ := (becomes.enrols (coherent_new sound {} room)).2
  have taken : (r.connections.map (·.id)).Sublist ((List.range n).map Ids.numberAt) := by
    rw [← map_fst_keys, ← Ids.takeMany_eq]
    exact (keys.map Prod.fst).trans given
  obtain ⟨places, among, numbers⟩ := List.sublist_map_iff.1 taken
  have distinct : (r.connections.map (·.id)).Nodup ↔ places.Pairwise fun i j => ¬i ≡ j [MOD Ids.period] := by
    rw [numbers, List.Nodup, List.pairwise_map]
    simp only [ne_eq, Ids.numberAt_eq_iff]
  refine ⟨fun c mem zero => ?_, n, places, counter, among, numbers, distinct, fun early => ?_⟩
  · have known : c.id ∈ r.connections.map (·.id) := List.mem_map_of_mem mem
    rw [numbers, zero] at known
    obtain ⟨k, -, bad⟩ := List.mem_map.1 known
    exact Nat.succ_ne_zero _ bad
  · apply taken.nodup
    apply List.Nodup.map_on _ List.nodup_range
    intro i hi j hj same
    rw [List.mem_range] at hi hj
    rw [Ids.numberAt_eq_iff, Nat.ModEq, Nat.mod_eq_of_lt (hi.trans_le early), Nat.mod_eq_of_lt (hj.trans_le early)] at same
    exact same

end Reactor

namespace Cycling

open Reactor Ids

def start : Reactor := {}

theorem start_sound : ({} : Host).Sound := ⟨List.nodup_nil, by rintro e ⟨⟩⟩

def stay : Nat × Kind := (1, .gateway)

def Comes (k : Nat) (keys : List (Nat × Kind)) : Prop :=
  ∃ r, Becomes start r ∧ r.ids = ({} : Ids).after k ∧ r.keys = keys

variable {k : Nat} {keys : List (Nat × Kind)}

theorem take_after (k : Nat) : (({} : Ids).after k).take.1 = numberAt k := by
  have more := takeMany_eq (k + 1)
  rw [takeMany_add, List.range_succ, List.map_append] at more
  simpa [Ids.takeMany] using (List.append_inj' more rfl).2

theorem coherent (r : Reactor) (becomes : Becomes start r) : r.Coherent none :=
  (becomes.enrols (coherent_new start_sound {} none)).1

theorem Comes.join (comes : Comes k keys) : Comes (k + 1) (keys ++ [(numberAt k, .gateway)]) := by
  obtain ⟨r, becomes, counter, rfl⟩ := comes
  have grows := Host.grows_openEndpoint r.host .file (.file 0 0)
  have isOpen := (Host.openEndpoint_isOpen r.host .file (.file 0 0) _).2 (Or.inr rfl)
  have new : r.host.next ≤ (r.host.openEndpoint .file (.file 0 0)).1.id := le_rfl
  generalize r.host.openEndpoint .file (.file 0 0) = outcome at grows isOpen new
  obtain ⟨e, host⟩ := outcome
  have opened : Becomes start { r with host } :=
    becomes.outside ⟨rfl, grows.sound, grows.next_le, fun e _ => grows.kept e, grows.opened⟩
  have loose : ({ r with host } : Reactor).Loose none e := (coherent r becomes).loose isOpen new
  have joined := opened.operation (.register ∅ .gateway (.ofEndpoint e) Flags.input
    (by rintro _ ⟨⟩; exact loose) fun _ _ => trivial)
  obtain ⟨counter', keys⟩ := (coherent _ opened).register_idle loose .gateway Flags.input
  refine ⟨_, joined, ?_, ?_⟩
  · rw [counter', counter, after_add]
    rfl
  · rw [keys, counter, take_after]
    rfl

theorem Comes.leave (comes : Comes k keys) (id : Nat) : Comes k (keys.eraseP (·.1 == id)) := by
  obtain ⟨r, becomes, counter, rfl⟩ := comes
  obtain ⟨keys, counter'⟩ := (coherent r becomes).unregister_keys id
  exact ⟨_, becomes.operation (.unregister id), counter'.trans counter, keys⟩

theorem comes_stay (k : Nat) (within : k < period) : Comes (k + 1) [stay] := by
  induction k with
  | zero => exact Comes.join ⟨start, .refl, rfl, rfl⟩
  | succ k ih =>
      have other : numberAt (k + 1) ≠ 1 := by
        rw [numberAt, Nat.mod_eq_of_lt within]
        omega
      have left := (ih (by omega)).join.leave (numberAt (k + 1))
      rwa [List.eraseP_append_right, List.eraseP_cons_of_pos (by simp), List.append_nil] at left
      simpa [stay] using Ne.symm other

theorem number_given_twice :
    ∃ r, Becomes start r ∧ (∀ c ∈ r.connections, c.id ≠ 0) ∧ ¬(r.connections.map (·.id)).Nodup := by
  obtain ⟨r, becomes, -, keys⟩ := (comes_stay (period - 1) (by decide)).join
  refine ⟨r, becomes, (Becomes.numbers start_sound none becomes).1, ?_⟩
  rw [← map_fst_keys, keys]
  decide

end Cycling

end TraceGate
