import TraceGate.Proofs.Host.Carrying
import TraceGate.Proofs.Reactor.Coherence

/-!
# What operations do not see

What one connection holds, the bytes that are under way on its line and what was seen in the last wait make no
difference to the operations on others. Each of them comes to the same whether these are there or erased (`bare`), and
leaves the connection as it was (`Attached`).
-/

namespace TraceGate

open Connection

namespace Reactor

variable {c d : Connection} {e : Endpoint} {n id j : Nat} {w : Host.Wire} {r : Reactor}

/-- The reactor without the bytes that are under way on a line, what was seen in the last wait and what a connection
holds. -/
def bare (r : Reactor) (n id : Nat) : Reactor :=
  { r with host := r.host.blank n, table := r.table.plain }.update id Connection.lend

/-- The connection stands in the reactor and has the endpoint to itself, and the endpoint has the line. -/
structure Attached (c : Connection) (e : Endpoint) (n : Nat) (w : Host.Wire) (r : Reactor) : Prop where
  found : r.connection? c.id = some c
  unshared : ∀ d ∈ r.connections, d.id ≠ c.id → d.endpoint? ≠ some e
  carries : r.host.Carries e n w

/-- What is done comes to the same whether the connection's own things are there or erased, and leaves it as it was. -/
def Spares {α : Type} (c : Connection) (e : Endpoint) (n : Nat) (w : Host.Wire) (r : Reactor)
    (act : Reactor → α × Reactor) : Prop :=
  act (r.bare n c.id) = ((act r).1, (act r).2.bare n c.id) ∧ Attached c e n w (act r).2

theorem connection?_bare (r : Reactor) (n id j : Nat) :
    (r.bare n id).connection? j = (r.connection? j).map fun d => if j = id then d.lend else d :=
  find?_updateFirst (f := Connection.lend) (fun _ => rfl) r.connections

theorem unwatch_bare (r : Reactor) (n id : Nat) (fd : Int) :
    (r.bare n id).unwatch fd = (r.unwatch fd).bare n id := by
  have same : (r.table.plain.disable fd).2 = (r.table.disable fd).2.plain :=
    congrArg Prod.snd (r.table.disable_plain fd)
  unfold unwatch bare
  simp only [update, same]

theorem unwatchOf_bare (r : Reactor) (n id : Nat) (d : Connection) :
    (r.bare n id).unwatchOf d = (r.unwatchOf d).bare n id := by
  unfold unwatchOf
  split
  · exact unwatch_bare r n id _
  · rfl

theorem discard_bare (r : Reactor) (n id : Nat) (receiver : Receiver) :
    (r.bare n id).discard receiver = (r.discard receiver).bare n id := by
  unfold discard Receiver.drop
  split
  · rfl
  · rename_i e _
    have same : (r.host.blank n).close e = (r.host.close e).blank n := r.host.close_blank n e
    unfold bare
    simp only [update, same]

theorem update_bare (other : j ≠ id) (f : Connection → Connection) (key : ∀ d, (f d).id = d.id) (r : Reactor)
    (n : Nat) : (r.bare n id).update j f = (r.update j f).bare n id := by
  have same := updateFirst_comm other key (g := Connection.lend) (fun _ => rfl) r.connections
  unfold bare
  simp only [update, same]

theorem bare_setHost {host : Host} (same : host.blank n = r.host.blank n) (id : Nat) :
    ({ r with host } : Reactor).bare n id = r.bare n id :=
  congrArg (fun host => ({ r with host, table := r.table.plain } : Reactor).update id Connection.lend) same

theorem Attached.with_table (attached : r.Attached c e n w) (table : Table) :
    ({ r with table } : Reactor).Attached c e n w :=
  ⟨attached.found, attached.unshared, attached.carries⟩

theorem Attached.unwatchOf (attached : r.Attached c e n w) (d : Connection) : (r.unwatchOf d).Attached c e n w := by
  unfold Reactor.unwatchOf
  split
  · exact attached.with_table _
  · exact attached

theorem Attached.discard (attached : r.Attached c e n w) {receiver : Receiver} (other : receiver.endpoint ≠ some e) :
    (r.discard receiver).Attached c e n w := by
  refine ⟨attached.found, attached.unshared, ?_⟩
  unfold Reactor.discard Receiver.drop
  split
  · exact attached.carries
  · rename_i e' held
    exact attached.carries.close fun same => other (same ▸ held)

theorem Attached.update (attached : r.Attached c e n w) (other : j ≠ c.id) {f : Connection → Connection}
    (key : ∀ d, (f d).id = d.id) (held : ∀ d, (f d).endpoint? = some e → d.endpoint? = some e) :
    (r.update j f).Attached c e n w where
  found := by
    have found : (r.update j f).connection? c.id = (r.connection? c.id).map fun d => if c.id = j then f d else d :=
      find?_updateFirst key r.connections
    rw [found, attached.found, Option.map_some, if_neg other.symm]
  unshared d mem apart holds := by
    rcases mem_updateFirst mem with old | ⟨b, origin, -, rfl⟩
    · exact attached.unshared d old apart holds
    · rw [key] at apart
      exact attached.unshared b origin apart (held b holds)
  carries := attached.carries

theorem deactivate_bare (other : d.id ≠ id) (r : Reactor) (n : Nat) :
    (r.bare n id).deactivate d = (r.deactivate d).bare n id := by
  unfold Reactor.deactivate discardHeld
  simp only [unwatchOf_bare, discard_bare]
  split
  · exact update_bare other Connection.shut (fun _ => rfl) _ n
  · exact update_bare other Connection.pause (fun _ => rfl) _ n

theorem Attached.deactivate (attached : r.Attached c e n w) (found : r.connection? d.id = some d)
    (other : d.id ≠ c.id) : (r.deactivate d).Attached c e n w := by
  have held : (d.receiver.getD .released).endpoint ≠ some e := by
    rw [endpoint?_eq]
    exact attached.unshared d (connection?_mem found) other
  unfold Reactor.deactivate discardHeld
  dsimp only
  split
  · refine ((attached.unwatchOf d).discard held).update other (fun _ => rfl) fun _ eq => ?_
    rw [shut_endpoint?] at eq
    cases eq
  · exact (attached.unwatchOf d).update other (fun _ => rfl) fun _ eq => eq

theorem Attached.activate (attached : r.Attached c e n w) (other : d.id ≠ c.id) :
    Spares c e n w r fun r => r.activate d := by
  unfold Spares Reactor.activate
  cases known : d.fd with
  | none => exact ⟨rfl, attached⟩
  | some fd =>
      have same : (r.bare n c.id).table.enable fd d.wanted = (r.table.enable fd d.wanted).map Table.plain :=
        r.table.enable_plain fd d.wanted
      dsimp only
      rw [same]
      cases r.table.enable fd d.wanted with
      | error error => exact ⟨rfl, attached⟩
      | ok table =>
          refine ⟨?_, (attached.with_table table).update other (fun _ => rfl) fun _ eq => eq⟩
          have started := update_bare other Connection.start (fun _ => rfl) { r with table } n
          exact congrArg _ started

theorem checkActivate_of_active (found : r.connection? j = some d) (active : d.IsActive) {policy : KindSet}
    (allowed : d.kind ∈ policy) : r.checkActivate j policy .activate = (.ok (), r) := by
  have active : d.activity = .active := active
  unfold Reactor.checkActivate
  simp only [found, active, allowed, and_self, decide_true, if_true]

theorem Attached.checkActivate (attached : r.Attached c e n w) (active : c.IsActive) {policy : KindSet}
    (allowed : c.kind ∈ policy) (j : Nat) : Spares c e n w r (Reactor.checkActivate j policy .activate) := by
  have bare := connection?_bare r n c.id j
  by_cases own : j = c.id
  · subst own
    rw [attached.found, Option.map_some, if_pos rfl] at bare
    rw [Spares, checkActivate_of_active attached.found active allowed, checkActivate_of_active bare active allowed]
    exact ⟨rfl, attached⟩
  · simp only [if_neg own, Option.map_id'] at bare
    unfold Spares Reactor.checkActivate
    rw [bare]
    cases found : r.connection? j with
    | none => exact ⟨rfl, attached⟩
    | some d =>
        obtain rfl : d.id = j := (connection?_split found).1
        dsimp only
        split
        · split
          · exact ⟨rfl, attached⟩
          · exact ⟨congrArg _ (deactivate_bare own r n), attached.deactivate found own⟩
        · split
          · exact attached.activate own
          · exact ⟨rfl, attached⟩
        · exact ⟨rfl, attached⟩

theorem Attached.checkAll (attached : r.Attached c e n w) (active : c.IsActive) {policy : KindSet}
    (allowed : c.kind ∈ policy) (ids : List Nat) : Spares c e n w r (Reactor.checkAll policy ids) := by
  induction ids generalizing r with
  | nil => exact ⟨rfl, attached⟩
  | cons id ids ih =>
      obtain ⟨same, after⟩ := attached.checkActivate active allowed id
      rcases outcome : r.checkActivate id policy .activate with ⟨answer, q⟩
      rw [outcome] at same after
      unfold Spares Reactor.checkAll
      rw [same, outcome]
      cases answer with
      | ok => exact ih after
      | error error => exact ⟨rfl, after⟩

theorem idsOf_bare (r : Reactor) (n id : Nat) (kinds : KindSet) : (r.bare n id).idsOf kinds = r.idsOf kinds := by
  have pairs (l : List Connection) : (l.filter fun c => c.kind ∈ kinds).map (·.id) =
      ((l.map fun c => (c.kind, c.id)).filter fun p => p.1 ∈ kinds).map Prod.snd := by
    rw [List.filter_map, List.map_map]
    rfl
  unfold idsOf
  rw [pairs, pairs]
  congr 2
  exact map_updateFirst (f := Connection.lend) _ fun _ => rfl

theorem Attached.reconcile (attached : r.Attached c e n w) (active : c.IsActive) {policy : KindSet}
    (allowed : c.kind ∈ policy) (kinds : KindSet) : Spares c e n w r (Reactor.reconcile policy kinds) := by
  have spares := attached.checkAll active allowed (r.idsOf kinds)
  unfold Spares Reactor.reconcile
  rw [idsOf_bare]
  exact spares

theorem checkActivate_of_error {policy : KindSet} {transition : Transition} {error : EventError}
    (failed : (r.checkActivate j policy transition).1 = .error error) :
    (r.checkActivate j policy transition).2 = r := by
  unfold Reactor.checkActivate at failed ⊢
  split
  · rfl
  · rename_i d found
    rw [found] at failed
    dsimp only at failed ⊢
    cases activity : d.activity <;> rw [activity] at failed
    case inactive =>
      dsimp only at failed ⊢
      split <;> rename_i wanted
      · rw [if_pos wanted] at failed
        exact (activate_error failed).1
      · rfl
    case active => cases failed

theorem add_bare (found : r.connection? id = some c) (n : Nat) (ids : Ids) (new : Connection) :
    ({ r.bare n id with ids } : Reactor).add new = (({ r with ids } : Reactor).add new).bare n id := by
  have present : ∃ d ∈ r.connections, (d.id == id) = true :=
    ⟨c, connection?_mem found, by simp [(connection?_split found).1]⟩
  have appended := updateFirst_append_left (f := Connection.lend) present [new]
  exact congrArg (fun connections => { ({ r with ids } : Reactor).add new with
    host := r.host.blank n, table := r.table.plain, connections }) appended.symm

theorem withdraw_bare (found : r.connection? id = some c) (n : Nat) (ids : Ids) (new : Connection) (receiver : Receiver)
    (kind : Kind) : ((({ r with ids } : Reactor).add new).bare n id).withdraw receiver kind =
      ((({ r with ids } : Reactor).add new).withdraw receiver kind).bare n id := by
  have present : ∃ d ∈ r.connections, (d.id == id) = true :=
    ⟨c, connection?_mem found, by simp [(connection?_split found).1]⟩
  have lists : (updateFirst (·.id == id) Connection.lend (r.connections ++ [new])).dropLast =
      updateFirst (·.id == id) Connection.lend (r.connections ++ [new]).dropLast := by
    rw [updateFirst_append_left present, List.dropLast_concat, List.dropLast_concat]
  generalize join : ({ r with ids } : Reactor).add new = q
  have whole : r.connections ++ [new] = q.connections := by rw [← join]; rfl
  rw [whole] at lists
  have discarded := discard_bare q n id receiver
  unfold Reactor.withdraw
  rw [discarded]
  exact congrArg (fun connections => { ((q.discard receiver).bare n id).setCount kind (q.count kind - 1) with
    connections }) lists

theorem Attached.add (attached : r.Attached c e n w) (ids : Ids) {new : Connection} (other : new.endpoint? ≠ some e) :
    (({ r with ids } : Reactor).add new).Attached c e n w := by
  refine ⟨?_, fun d mem apart => ?_, attached.carries⟩
  · change (r.connections ++ [new]).find? (·.id == c.id) = some c
    rw [List.find?_append, show r.connections.find? (·.id == c.id) = some c from attached.found]
    rfl
  · rcases List.mem_append.1 mem with old | last
    · exact attached.unshared d old apart
    · rw [List.mem_singleton.1 last]
      exact other

theorem Attached.withdraw (attached : r.Attached c e n w) (ids : Ids) (new : Connection) {receiver : Receiver}
    (other : receiver.endpoint ≠ some e) (kind : Kind) :
    ((({ r with ids } : Reactor).add new).withdraw receiver kind).Attached c e n w := by
  have connections : ((({ r with ids } : Reactor).add new).withdraw receiver kind).connections = r.connections :=
    List.dropLast_concat
  refine ⟨?_, fun d mem => ?_, (attached.discard other).carries⟩
  · rw [connection?, connections]
    exact attached.found
  · rw [connections] at mem
    exact attached.unshared d mem

theorem Attached.register (attached : r.Attached c e n w) (active : c.IsActive) {policy : KindSet}
    (allowed : c.kind ∈ policy) (kind : Kind) {receiver : Receiver} (other : receiver.endpoint ≠ some e)
    (wanted : Flags) : Spares c e n w r (Reactor.register policy kind receiver wanted) := by
  unfold Spares Reactor.register
  split
  · exact ⟨rfl, attached⟩
  · have ids : (r.bare n c.id).ids = r.ids := rfl
    rw [ids]
    rcases r.ids.take with ⟨number, ids⟩
    have withdrawn := withdraw_bare attached.found n ids (.new number kind receiver wanted) receiver kind
    have left := attached.withdraw ids (.new number kind receiver wanted) other kind
    have joined : (({ r with ids } : Reactor).add (.new number kind receiver wanted)).Attached c e n w :=
      attached.add ids other
    dsimp only
    rw [add_bare attached.found]
    generalize ({ r with ids } : Reactor).add (.new number kind receiver wanted) = q at joined withdrawn left
    obtain ⟨same, after⟩ := joined.checkActivate active allowed number
    have failed := @checkActivate_of_error number q policy .activate
    rcases outcome : q.checkActivate number policy .activate with ⟨answer, q'⟩
    rw [outcome] at same after failed
    rw [same]
    cases answer with
    | ok => exact ⟨rfl, after⟩
    | error error =>
        obtain rfl : q' = q := failed rfl
        exact ⟨congrArg _ withdrawn, left⟩

theorem Attached.assign (attached : r.Attached c e n w) (apart : j ≠ c.id) {e' : Endpoint} (other : e' ≠ e) :
    Spares c e n w r (Reactor.assign j e') := by
  have bare := connection?_bare r n c.id j
  simp only [if_neg apart, Option.map_id'] at bare
  have refused : ({ r.bare n c.id with host := (r.bare n c.id).host.close e' } : Reactor) =
      ({ r with host := r.host.close e' } : Reactor).bare n c.id := discard_bare r n c.id (.ofEndpoint e')
  have left : ({ r with host := r.host.close e' } : Reactor).Attached c e n w :=
    @Attached.discard _ _ _ _ _ attached (.ofEndpoint e') fun same => other (Option.some.inj same)
  unfold Spares Reactor.assign
  dsimp only
  rw [bare, refused]
  cases found : r.connection? j with
  | none => exact ⟨rfl, left⟩
  | some d =>
      obtain rfl : d.id = j := (connection?_split found).1
      dsimp only
      split
      · exact ⟨rfl, left⟩
      · cases held : d.receiver with
        | none => exact ⟨rfl, left⟩
        | some receiver =>
            have apart' : receiver.endpoint ≠ some e := by
              rw [← endpoint?_of_receiver held]
              exact attached.unshared d (connection?_mem found) apart
            have given := update_bare apart (·.hold (.ofEndpoint e')) (fun _ => rfl) (r.discard receiver) n
            rw [← discard_bare] at given
            refine ⟨congrArg _ given, ((attached.discard apart').update apart (fun _ => rfl) fun d eq => ?_)⟩
            exact absurd (Option.some.inj eq) other

end Reactor

end TraceGate
