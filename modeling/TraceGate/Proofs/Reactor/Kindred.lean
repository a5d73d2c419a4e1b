import TraceGate.Proofs.Reactor.Foremost
import TraceGate.Proofs.Reactor.Sparing

namespace TraceGate

open Connection

namespace Reactor

def kindred (kind : Kind) (r : Reactor) : List Connection := r.connections.filter fun c => c.kind = kind

/-- The number does not stand for a connection of the kind. -/
def Spared (kind : Kind) (r : Reactor) (id : Nat) : Prop := ∀ d, r.connection? id = some d → d.kind ≠ kind

variable {kind kind' : Kind} {r r' : Reactor} {c d : Connection} {id : Nat} {loan : Option Loan} {policy : KindSet}

theorem mem_kindred : c ∈ r.kindred kind ↔ c ∈ r.connections ∧ c.kind = kind := by
  simp [kindred]

theorem Spared.of_found (found : r.connection? id = some d) (other : d.kind ≠ kind) : Spared kind r id := by
  intro b hit
  cases found.symm.trans hit
  exact other

theorem Spared.of_ne (apart : ∀ c ∈ r.kindred kind, c.id ≠ id) : Spared kind r id := by
  intro d hit same
  exact apart d (mem_kindred.2 ⟨connection?_mem hit, same⟩) (connection?_split hit).1

theorem Spared.update {f : Connection → Connection} (keys : ∀ d, (f d).id = d.id) (kinds : ∀ d, (f d).kind = d.kind)
    (spared : Spared kind r id) : Spared kind (r.update id f) id := by
  intro d hit
  rw [connection?, Reactor.update, find?_updateFirst keys] at hit
  obtain ⟨b, found, rfl⟩ := Option.map_eq_some_iff.1 hit
  rw [if_pos rfl, kinds]
  exact spared b found

theorem Spared.unwatchOf (spared : Spared kind r id) (c : Connection) : Spared kind (r.unwatchOf c) id := by
  unfold Reactor.unwatchOf
  cases c.fd <;> exact spared

theorem kindred_around (kind : Kind) (found : r.connection? id = some c) : ∃ before after : List Connection,
    r.kindred kind = before ++ (if c.kind = kind then [c] else []) ++ after ∧
    (∀ f : Connection → Connection, (f c).kind = c.kind →
      (r.update id f).kindred kind = before ++ (if c.kind = kind then [f c] else []) ++ after) ∧
    (r.connections.eraseP (·.id == id)).filter (fun d => d.kind = kind) = before ++ after := by
  obtain ⟨rfl, before, after, parts, ahead⟩ := connection?_split found
  have around (d : Connection) : (before ++ d :: after).filter (fun d => d.kind = kind) =
      before.filter (fun d => d.kind = kind) ++ (if d.kind = kind then [d] else []) ++ after.filter fun d => d.kind = kind := by
    rw [List.filter_append, List.filter_cons, List.append_assoc]
    by_cases own : d.kind = kind <;> simp [own]
  refine ⟨before.filter fun d => d.kind = kind, after.filter fun d => d.kind = kind, ?_, fun f same => ?_, ?_⟩
  · rw [kindred, parts, around]
  · rw [kindred, Reactor.update, parts, updateFirst_append (by simp) ahead, around, same]
  · rw [parts, List.eraseP_append_right _ ahead, List.eraseP_cons_of_pos (by simp), List.filter_append]

theorem update_of_none (absent : r.connection? id = none) (f : Connection → Connection) : r.update id f = r := by
  have same : updateFirst (fun d => d.id == id) f r.connections = r.connections := by
    unfold connection? at absent
    generalize r.connections = connections at absent
    induction connections with
    | nil => rfl
    | cons b l ih =>
        obtain ⟨other, rest⟩ := List.forall_mem_cons.1 (List.find?_eq_none.1 absent)
        rw [updateFirst, if_neg other, ih (List.find?_eq_none.2 rest)]
  rw [Reactor.update, same]

theorem kindred_update {f : Connection → Connection} (kinds : ∀ d, (f d).kind = d.kind) (spared : Spared kind r id) :
    (r.update id f).kindred kind = r.kindred kind := by
  cases found : r.connection? id with
  | none => rw [update_of_none found]
  | some c =>
      obtain ⟨before, after, parts, updated, -⟩ := kindred_around kind found
      rw [updated f (kinds c), parts, if_neg (spared c found), if_neg (spared c found)]

theorem Coherent.kindred_unregister (coherent : r.Coherent loan) (spared : Spared kind r id) :
    (r.unregister id).2.kindred kind = r.kindred kind := by
  rw [kindred, (coherent.unregister_connections id).1]
  cases found : r.connection? id with
  | none => rw [List.eraseP_of_forall_not (List.find?_eq_none.1 found), kindred]
  | some c =>
      obtain ⟨before, after, parts, -, erased⟩ := kindred_around kind found
      rw [erased, parts, if_neg (spared c found), List.append_nil]

theorem Coherent.kindred_unregisterAll (coherent : r.Coherent loan) {ids : List Nat} (apart : ids.Nodup)
    (spared : ∀ id ∈ ids, Spared kind r id) : (r.unregisterAll ids).kindred kind = r.kindred kind := by
  induction ids generalizing r with
  | nil => rfl
  | cons id ids ih =>
      obtain ⟨fresh, apart⟩ := List.nodup_cons.1 apart
      have rest : ∀ j ∈ ids, Spared kind (r.unregister id).2 j := by
        intro j mem d hit
        have other : id ≠ j := fun same => fresh (same ▸ mem)
        rw [connection?, (coherent.unregister_connections id).1, find?_eraseP other] at hit
        exact spared j (List.mem_cons_of_mem _ mem) d hit
      rw [Reactor.unregisterAll, ih (coherent.unregister id).1 apart rest]
      exact coherent.kindred_unregister (spared id List.mem_cons_self)

theorem Foremost.kindred_sendTo (foremost : r.Foremost) (coherent : r.Coherent loan) {kinds : KindSet}
    (other : kind ∉ kinds) (bytes : Bytes) : (r.sendTo kinds bytes).2.kindred kind = r.kindred kind := by
  obtain ⟨apart, refused⟩ := foremost.refusers kinds bytes r.host
  have grown := coherent.grow (sendEach_grows bytes (r.targets kinds) r.host)
  refine grown.kindred_unregisterAll apart fun id mem => ?_
  obtain ⟨b, found, -, member, -⟩ := refused id mem
  exact .of_found found fun same => other (same ▸ member)

structure Joins (r : Reactor) (c : Connection) (outcome : Except EventError Nat × Reactor) : Prop where
  ok : outcome.1 = .ok c.id
  host : outcome.2.host = r.host
  connections : outcome.2.connections = r.connections ++ [c]

theorem register_ok (fresh : r.connection? r.ids.take.1 = none) (allowed : kind ∈ policy) {e : Endpoint} {wanted : Flags}
    {id : Nat} (done : (r.register policy kind (.ofEndpoint e) wanted).1 = .ok id) :
    Joins r (Connection.new r.ids.take.1 kind (.ofEndpoint e) wanted).start (r.register policy kind (.ofEndpoint e) wanted) := by
  unfold Reactor.register at done ⊢
  rw [if_neg (by simp [Receiver.isReleased, Receiver.ofEndpoint])] at done ⊢
  dsimp only at done ⊢
  generalize new : Connection.new r.ids.take.1 kind (.ofEndpoint e) wanted = n at done ⊢
  obtain ⟨number, sort, idle, fd⟩ : n.id = r.ids.take.1 ∧ n.kind = kind ∧ n.activity = .inactive ∧ n.fd = some e.fd := by
    rw [← new]
    exact ⟨rfl, rfl, rfl, rfl⟩
  have ahead : ∀ d ∈ r.connections, ¬(d.id == n.id) = true := by
    rw [number]
    exact List.find?_eq_none.1 fresh
  have found : (({ r with ids := r.ids.take.2 } : Reactor).add n).connection? n.id = some n :=
    List.find?_eq_some_iff_append.2 ⟨by simp, r.connections, [], rfl, fun d mem => by simpa using ahead d mem⟩
  rw [← number] at done ⊢
  rw [Reactor.checkActivate, found] at done ⊢
  simp only [sort, allowed, idle, and_self, decide_true, if_true, Reactor.activate, fd] at done ⊢
  split at done <;> rename_i eq
  · split at eq
    · cases eq
    · obtain ⟨-, rfl⟩ := Prod.mk.inj eq
      exact ⟨rfl, rfl, updateFirst_append (by simp) ahead⟩
  · cases done

theorem register_error {kind : Kind} {receiver : Receiver} {wanted : Flags} {error : EventError}
    (failed : (r.register policy kind receiver wanted).1 = .error error) :
    (r.register policy kind receiver wanted).2.connections = r.connections := by
  unfold Reactor.register at failed ⊢
  split
  · rfl
  · rename_i held
    rw [if_neg held] at failed
    dsimp only at failed ⊢
    split <;> rename_i eq <;> rw [eq] at failed
    · cases failed
    · have same := checkActivate_of_error (congrArg Prod.fst eq)
      obtain rfl := (congrArg Prod.snd eq).symm.trans same
      exact List.dropLast_concat

def Awake (kind : Kind) (r : Reactor) : Prop := ∀ c ∈ r.kindred kind, c.IsActive

theorem Awake.of_eq (awake : Awake kind r) (same : r'.kindred kind = r.kindred kind) : Awake kind r' := by
  unfold Awake
  rw [same]
  exact awake

theorem kindred_unwatchOf (r : Reactor) (c : Connection) : (r.unwatchOf c).kindred kind = r.kindred kind := by
  unfold unwatchOf
  cases c.fd <;> rfl

theorem kindred_deactivate (spared : Spared kind r c.id) : (r.deactivate c).kindred kind = r.kindred kind := by
  have unwatched := spared.unwatchOf c
  unfold deactivate
  dsimp only
  split
  · exact (kindred_update (r := (r.unwatchOf c).discardHeld c) (f := shut) (fun _ => rfl) unwatched).trans
      (kindred_unwatchOf r c)
  · exact (kindred_update (f := pause) (fun _ => rfl) unwatched).trans (kindred_unwatchOf r c)

theorem kindred_activate (spared : Spared kind r c.id) : (r.activate c).2.kindred kind = r.kindred kind := by
  unfold activate
  split
  · rfl
  · split
    · rfl
    · rename_i table _
      exact kindred_update (r := { r with table }) (f := start) (fun _ => rfl) spared

theorem kindred_checkActivate (awake : Awake kind r) (allowed : kind ∈ policy) (id : Nat) :
    (r.checkActivate id policy .activate).2.kindred kind = r.kindred kind := by
  unfold Reactor.checkActivate
  split
  · rfl
  · rename_i c found
    obtain rfl : c.id = id := (connection?_split found).1
    dsimp only
    by_cases own : c.kind = kind
    · have active : c.activity = .active := awake c (mem_kindred.2 ⟨connection?_mem found, own⟩)
      rw [active]
      dsimp only
      rw [if_pos (by simpa [own] using allowed)]
    · have spared : Spared kind r c.id := .of_found found own
      split
      · split
        · rfl
        · exact kindred_deactivate spared
      · split
        · exact kindred_activate spared
        · rfl
      · rfl

theorem kindred_checkAll (awake : Awake kind r) (allowed : kind ∈ policy) (ids : List Nat) :
    (r.checkAll policy ids).2.kindred kind = r.kindred kind := by
  induction ids generalizing r with
  | nil => rfl
  | cons id ids ih =>
      have checked := kindred_checkActivate awake allowed id
      unfold Reactor.checkAll
      split <;> rename_i eq <;> rw [eq] at checked
      · exact (ih (awake.of_eq checked)).trans checked
      · exact checked

theorem kindred_register (awake : Awake kind r) (allowed : kind ∈ policy) (other : kind' ≠ kind) (receiver : Receiver)
    (wanted : Flags) : (r.register policy kind' receiver wanted).2.kindred kind = r.kindred kind := by
  cases done : (r.register policy kind' receiver wanted).1 with
  | error error => rw [kindred, register_error done, kindred]
  | ok number =>
      unfold Reactor.register at done ⊢
      split
      · rfl
      · rename_i held
        rw [if_neg held] at done
        dsimp only at done ⊢
        have added : (({ r with ids := r.ids.take.2 } : Reactor).add
            (.new r.ids.take.1 kind' receiver wanted)).kindred kind = r.kindred kind := by
          have apart : (Connection.new r.ids.take.1 kind' receiver wanted).kind ≠ kind := other
          simp [kindred, Reactor.add, Reactor.setCount, apart]
        have checked := kindred_checkActivate (awake.of_eq added) allowed r.ids.take.1
        split <;> rename_i eq <;> rw [eq] at done checked
        · exact checked.trans added
        · cases done

theorem kindred_assign (spared : Spared kind r id) (e : Endpoint) :
    (r.assign id e).2.kindred kind = r.kindred kind := by
  unfold Reactor.assign
  dsimp only
  split
  · rfl
  · split
    · rfl
    · split
      · rfl
      · rename_i receiver _
        exact kindred_update (r := { r with host := (receiver.assign e r.host).2 }) (f := (·.hold _)) (fun _ => rfl) spared

theorem kindred_restore (spared : Spared kind r id) (receiver : Receiver) :
    (r.restore id receiver).kindred kind = r.kindred kind := by
  unfold Reactor.restore
  split
  · rfl
  · rename_i c found
    have back := kindred_update (r := r.discardHeld c) (f := (·.hold receiver)) (fun _ => rfl) spared
    have unwatched : (((r.discardHeld c).update id (·.hold receiver)).unwatchOf c).kindred kind = r.kindred kind :=
      (kindred_unwatchOf _ c).trans back
    dsimp only
    split
    · split
      · exact unwatched
      · have held : Spared kind ((r.discardHeld c).update id (·.hold receiver)) id :=
          Spared.update (r := r.discardHeld c) (fun _ => rfl) (fun _ => rfl) spared
        exact (kindred_update (f := pause) (fun _ => rfl) (held.unwatchOf c)).trans unwatched
    · exact back

theorem lone_around (lone : r.kindred kind = [c]) (found : r.connection? c.id = some c) :
    (∀ f : Connection → Connection, (f c).kind = c.kind → (r.update c.id f).kindred kind = [f c]) ∧
      (r.connections.eraseP (·.id == c.id)).filter (fun d => d.kind = kind) = [] := by
  have own : c.kind = kind := (mem_kindred.1 (lone ▸ List.mem_singleton_self c)).2
  obtain ⟨before, after, parts, updated, erased⟩ := kindred_around kind found
  rw [lone, if_pos own] at parts
  have counted := congrArg List.length parts
  simp only [List.length_append, List.length_singleton] at counted
  obtain ⟨rfl, rfl⟩ : before = [] ∧ after = [] := by
    constructor <;> exact List.eq_nil_of_length_eq_zero (by omega)
  refine ⟨fun f same => ?_, erased⟩
  rw [updated f same, if_pos own]
  rfl

theorem kindred_update_own {f : Connection → Connection} (kinds : ∀ d, (f d).kind = d.kind) (lone : r.kindred kind = [c])
    (found : r.connection? c.id = some c) : (r.update c.id f).kindred kind = [f c] :=
  (lone_around lone found).1 f (kinds c)

theorem Coherent.kindred_unregister_own (coherent : r.Coherent loan) (lone : r.kindred kind = [c])
    (found : r.connection? c.id = some c) : (r.unregister c.id).2.kindred kind = [] := by
  rw [kindred, (coherent.unregister_connections c.id).1]
  exact (lone_around lone found).2

theorem kindred_restore_own {receiver : Receiver} (lone : r.kindred kind = [c]) (found : r.connection? c.id = some c)
    (same : receiver.fd? = c.fd) : (r.restore c.id receiver).kindred kind = [c.hold receiver] := by
  have back : ((r.discardHeld c).update c.id (·.hold receiver)).kindred kind = [c.hold receiver] :=
    kindred_update_own (r := r.discardHeld c) (fun _ => rfl) lone found
  unfold Reactor.restore
  rw [found]
  dsimp only
  rw [if_neg (by rw [same]; simp)]
  exact back

theorem kindred_register_own (empty : r.kindred kind = []) (fresh : r.connection? r.ids.take.1 = none)
    (allowed : kind ∈ policy) {e : Endpoint} {wanted : Flags} {id : Nat}
    (done : (r.register policy kind (.ofEndpoint e) wanted).1 = .ok id) :
    ∃ n, (r.register policy kind (.ofEndpoint e) wanted).2.kindred kind = [n] ∧ n.IsActive ∧ n.endpoint? = some e := by
  refine ⟨(Connection.new r.ids.take.1 kind (.ofEndpoint e) wanted).start, ?_, rfl, rfl⟩
  rw [kindred, (register_ok fresh allowed done).connections, List.filter_append, ← kindred, empty,
    List.filter_cons_of_pos (by simp [Connection.start, Connection.new])]
  rfl

end Reactor

end TraceGate
