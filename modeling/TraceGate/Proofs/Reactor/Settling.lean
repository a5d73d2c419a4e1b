import TraceGate.Proofs.Reactor.Each

namespace TraceGate

open Connection

/-- Only client listeners are without a descriptor. -/
def Connection.Homed (c : Connection) : Prop := c.fd = none → c.kind = .clientConnect

namespace Reactor

variable {r r' : Reactor} {c d : Connection} {policy : KindSet} {id j : Nat}

def AtRest (policy : KindSet) (c : Connection) : Prop :=
  c.IsActive ∧ c.kind ∈ policy ∨ c.activity = .inactive ∧ (c.kind ∈ policy → c.fd = none)

theorem checkActivate_of_atRest (found : r.connection? id = some c) (rests : AtRest policy c) :
    r.checkActivate id policy .activate = (.ok (), r) := by
  rcases rests with ⟨active, allowed⟩ | ⟨inactive, vacant⟩
  · exact checkActivate_of_active found active allowed
  · unfold Reactor.checkActivate
    simp only [found, inactive, and_true, decide_eq_true_eq]
    split
    · rename_i allowed
      rw [Reactor.activate, vacant allowed]
    · rfl

theorem checkActivate_atRest (ok : (r.checkActivate id policy .activate).1 = .ok ()) :
    ∃ c, (r.checkActivate id policy .activate).2.connection? id = some c ∧ AtRest policy c := by
  unfold Reactor.checkActivate at ok ⊢
  cases found : r.connection? id with
  | none =>
      rw [found] at ok
      cases ok
  | some c =>
      obtain rfl : c.id = id := (connection?_split found).1
      rw [found] at ok
      simp only [and_true, decide_eq_true_eq] at ok ⊢
      cases activity : c.activity with
      | active =>
          dsimp only
          split
          · rename_i allowed
            exact ⟨c, found, Or.inl ⟨activity, allowed⟩⟩
          · rename_i forbidden
            refine ⟨_, deactivate_connection? found, Or.inr ?_⟩
            split
            · exact ⟨rfl, fun _ => rfl⟩
            · exact ⟨rfl, fun allowed => absurd allowed forbidden⟩
      | inactive =>
          simp only [activity] at ok ⊢
          split
          · rename_i allowed
            rw [if_pos allowed] at ok
            unfold Reactor.activate at ok ⊢
            split
            · rename_i vacant
              exact ⟨c, found, Or.inr ⟨activity, fun _ => vacant⟩⟩
            · rename_i fd known
              rw [known] at ok
              dsimp only at ok
              split <;> rename_i enabled <;> rw [enabled] at ok
              · cases ok
              · rename_i table
                exact ⟨c.start, update_connection? (r := { r with table }) (fun _ => rfl) found, Or.inl ⟨rfl, allowed⟩⟩
          · rename_i forbidden
            exact ⟨c, found, Or.inr ⟨activity, fun allowed => absurd allowed forbidden⟩⟩
      | _ =>
          rw [activity] at ok
          cases ok

theorem connection?_update_of_ne {f : Connection → Connection} (key : ∀ d, (f d).id = d.id) (other : j ≠ id) (r : Reactor) :
    (r.update id f).connection? j = r.connection? j := by
  rw [connection?, Reactor.update, find?_updateFirst key]
  simp [other, connection?]

theorem checkActivate_of_ne {transition : Transition} (other : j ≠ id) (policy : KindSet) :
    (r.checkActivate id policy transition).2.connection? j = r.connection? j := by
  unfold Reactor.checkActivate
  cases found : r.connection? id with
  | none => rfl
  | some c =>
      obtain rfl : c.id = id := (connection?_split found).1
      dsimp only
      split
      · dsimp only
        split
        · rfl
        · obtain ⟨f, key, connections⟩ := deactivate_connections r c
          rw [connection?, connections]
          exact connection?_update_of_ne (fun d => (key d).1) other r
      · split
        · unfold Reactor.activate
          split
          · rfl
          · split
            · rfl
            · rename_i table _
              exact connection?_update_of_ne (f := Connection.start) (fun _ => rfl) other { r with table }
        · rfl
      · rfl

theorem checkAll_of_atRest {ids : List Nat} (rest : ∀ id ∈ ids, ∃ c, r.connection? id = some c ∧ AtRest policy c) :
    r.checkAll policy ids = (.ok (), r) := by
  induction ids with
  | nil => rfl
  | cons id ids ih =>
      obtain ⟨c, found, rests⟩ := rest id List.mem_cons_self
      rw [checkAll, checkActivate_of_atRest found rests]
      exact ih fun j mem => rest j (List.mem_cons_of_mem _ mem)

theorem checkActivate_keeps_rest (ok : (r.checkActivate id policy .activate).1 = .ok ())
    (rest : ∃ c, r.connection? j = some c ∧ AtRest policy c) :
    ∃ c, (r.checkActivate id policy .activate).2.connection? j = some c ∧ AtRest policy c := by
  by_cases same : j = id
  · subst same
    exact checkActivate_atRest ok
  · rwa [checkActivate_of_ne same]

theorem checkAll_atRest {ids : List Nat} (ok : (r.checkAll policy ids).1 = .ok ())
    (mem : j ∈ ids ∨ ∃ c, r.connection? j = some c ∧ AtRest policy c) :
    ∃ c, (r.checkAll policy ids).2.connection? j = some c ∧ AtRest policy c := by
  induction ids generalizing r with
  | nil => exact mem.resolve_left List.not_mem_nil
  | cons id ids ih =>
      have own := @checkActivate_atRest r policy id
      have keeps := @checkActivate_keeps_rest r policy id j
      unfold Reactor.checkAll at ok ⊢
      generalize r.checkActivate id policy .activate = outcome at ok own keeps ⊢
      obtain ⟨_ | _, q⟩ := outcome
      · cases ok
      · refine ih ok ?_
        rcases mem with mem | rest
        · rcases List.mem_cons.1 mem with rfl | later
          · exact Or.inr (own rfl)
          · exact Or.inl later
        · exact Or.inr (keeps rfl rest)

theorem reconcile_again {kinds : KindSet} (ok : (r.reconcile policy kinds).1 = .ok ()) :
    (r.reconcile policy kinds).2.reconcile policy kinds = (.ok (), (r.reconcile policy kinds).2) := by
  have chosen (q : Reactor) : q.idsOf kinds = (q.keys.filter (·.2 ∈ kinds)).map Prod.fst := by
    simp only [idsOf, keys, List.filter_map, List.map_map]
    rfl
  have same : (r.reconcile policy kinds).2.idsOf kinds = r.idsOf kinds := by
    rw [chosen, chosen, reconcile, (checkAll_keys policy (r.idsOf kinds) r).1]
  rw [reconcile, same]
  exact checkAll_of_atRest fun id mem => checkAll_atRest ok (Or.inl mem)

def fdOf? (r : Reactor) (id : Nat) : Option (Option Nat) := (r.connection? id).map (·.fd)

theorem fdOf?_update {f : Connection → Connection} (key : ∀ d, (f d).id = d.id) (same : ∀ d, (f d).fd = d.fd)
    (r : Reactor) (id j : Nat) : (r.update id f).fdOf? j = r.fdOf? j := by
  rw [fdOf?, fdOf?, connection?, Reactor.update, find?_updateFirst key, Option.map_map]
  congr 1
  funext d
  rw [Function.comp_apply]
  split
  · exact same d
  · rfl

theorem fdOf?_checkActivate (allowed : .clientConnect ∈ policy) (r : Reactor) (id j : Nat) :
    (r.checkActivate id policy .activate).2.fdOf? j = r.fdOf? j := by
  unfold Reactor.checkActivate
  cases found : r.connection? id with
  | none => rfl
  | some c =>
      dsimp only
      split
      · dsimp only
        split
        · rfl
        · rename_i forbidden
          have other : c.kind ≠ .clientConnect := by
            rintro client
            simp [client, allowed] at forbidden
          rw [Reactor.deactivate, if_neg other, fdOf?_update (f := Connection.pause) (fun _ => rfl) (fun _ => rfl)]
          unfold unwatchOf
          cases c.fd <;> rfl
      · split
        · unfold Reactor.activate
          split
          · rfl
          · split
            · rfl
            · rename_i table _
              exact fdOf?_update (f := Connection.start) (fun _ => rfl) (fun _ => rfl) { r with table } c.id j
        · rfl
      · rfl

theorem fdOf?_checkAll (allowed : .clientConnect ∈ policy) (ids : List Nat) (r : Reactor) (j : Nat) :
    (r.checkAll policy ids).2.fdOf? j = r.fdOf? j := by
  induction ids generalizing r with
  | nil => rfl
  | cons id ids ih =>
      have first := fdOf?_checkActivate allowed r id j
      unfold Reactor.checkAll
      split <;> rename_i eq <;> rw [eq] at first
      · exact (ih _).trans first
      · exact first

theorem fdOf?_assign {e : Endpoint} (ok : (r.assign id e).1 = .ok ()) (j : Nat) :
    (r.assign id e).2.fdOf? j = if j = id then some (some e.fd) else r.fdOf? j := by
  unfold Reactor.assign at ok ⊢
  dsimp only at ok ⊢
  split at ok
  · cases ok
  · rename_i c found
    split at ok
    · cases ok
    · rename_i idle
      split at ok
      · cases ok
      · rename_i receiver held
        rw [if_neg idle]
        split
        · rename_i own
          subst own
          rw [fdOf?, update_connection? (r := { r with host := (receiver.assign e r.host).2 }) (f := (·.hold _)) (fun _ => rfl) found]
          rfl
        · rename_i other
          rw [fdOf?, connection?_update_of_ne (f := (·.hold _)) (fun _ => rfl) other]
          rfl

theorem fdOf?_register (allowed : .clientConnect ∈ policy) {kind : Kind} {e : Endpoint} {wanted : Flags}
    (ok : (r.register policy kind (.ofEndpoint e) wanted).1 = .ok id) (j : Nat) :
    (r.register policy kind (.ofEndpoint e) wanted).2.fdOf? j =
      (r.fdOf? j).or (if id = j then some (some e.fd) else none) := by
  unfold Reactor.register at ok ⊢
  rw [if_neg (by simp [Receiver.isReleased, Receiver.ofEndpoint])] at ok ⊢
  dsimp only at ok ⊢
  have same := fdOf?_checkActivate allowed
    (({ r with ids := r.ids.take.2 } : Reactor).add (.new r.ids.take.1 kind (.ofEndpoint e) wanted)) r.ids.take.1 j
  split <;> rename_i eq <;> rw [eq] at ok same
  · obtain rfl := Except.ok.inj ok
    rw [same]
    simp only [fdOf?, connection?, Reactor.add, Reactor.setCount, List.find?_append, Option.map_or]
    congr 1
    simp only [List.find?_cons, List.find?_nil, Connection.new]
    split <;> simp_all [Receiver.fd?, Receiver.ofEndpoint]
  · cases ok

theorem lasting_homed (policy : KindSet) : Lasting policy Homed where
  new _ _ _ _ vacant := by cases vacant
  start _ := id
  pause := id
  shut client _ _ := client
  take _ _ vacant := by cases vacant

end Reactor

end TraceGate
