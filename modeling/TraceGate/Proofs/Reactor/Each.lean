import TraceGate.Proofs.Reactor.Kindred

namespace TraceGate

open Connection

/-- A property that new connections have, and that none loses by what a reactor does to it under a policy. -/
structure Connection.Lasting (policy : KindSet) (P : Connection → Prop) : Prop where
  new : ∀ (id : Nat) (kind : Kind) (e : Endpoint) (wanted : Flags), P (.new id kind (.ofEndpoint e) wanted)
  start : ∀ {c : Connection}, c.kind ∈ policy → P c → P c.start
  pause : ∀ {c : Connection}, P c → P c.pause
  shut : ∀ {c : Connection}, c.kind = .clientConnect → P c → P c.shut
  take : ∀ {c : Connection} (e : Endpoint), P c → P (c.hold (.ofEndpoint e))

theorem Connection.Lasting.idle {policy : KindSet} {P : Connection → Prop} (lasting : Lasting policy P) : Lasting ∅ P :=
  { lasting with start := fun none _ => absurd none (by simp) }

namespace Reactor

variable {P : Connection → Prop} {r r' : Reactor} {c d : Connection} {id : Nat}

def Each (P : Connection → Prop) (r : Reactor) : Prop := ∀ c ∈ r.connections, P c

theorem mem_update {f : Connection → Connection} (found : r.connection? id = some c)
    (mem : d ∈ (r.update id f).connections) : d ∈ r.connections ∨ d = f c := by
  obtain ⟨rfl, before, after, split, ahead⟩ := connection?_split found
  rw [Reactor.update, split, updateFirst_append (by simp) ahead] at mem
  rw [split]
  simp only [List.mem_append, List.mem_cons] at mem ⊢
  tauto

theorem Each.of_subset (each : r.Each P) (subset : r'.connections ⊆ r.connections) : r'.Each P :=
  fun c mem => each c (subset mem)

theorem Each.update {f : Connection → Connection} (each : r.Each P) (change : ∀ c, r.connection? id = some c → P c → P (f c)) :
    (r.update id f).Each P := by
  cases found : r.connection? id with
  | none => rwa [update_of_none found]
  | some c =>
      intro d mem
      rcases mem_update found mem with old | rfl
      · exact each d old
      · exact change c found (each c (connection?_mem found))

theorem Each.unwatchOf (each : r.Each P) (c : Connection) : (r.unwatchOf c).Each P := by
  unfold Reactor.unwatchOf
  split <;> exact each

section

variable {policy : KindSet} (lasting : Lasting policy P)

include lasting

theorem Each.checkActivate (each : r.Each P) (id : Nat) (transition : Transition) :
    (r.checkActivate id policy transition).2.Each P := by
  unfold Reactor.checkActivate
  cases found : r.connection? id with
  | none => exact each
  | some c =>
      obtain rfl : c.id = id := (connection?_split found).1
      have unwatched : (r.unwatchOf c).connection? c.id = some c := by
        unfold Reactor.unwatchOf
        cases c.fd <;> exact found
      dsimp only
      split
      · dsimp only
        split
        · exact each
        · unfold Reactor.deactivate
          dsimp only
          split
          · rename_i client
            refine Each.update (r := (r.unwatchOf c).discardHeld c) (each.unwatchOf c) fun d again holds => ?_
            cases again.symm.trans unwatched
            exact lasting.shut client holds
          · exact (each.unwatchOf c).update fun _ _ => lasting.pause
      · split
        · rename_i wanted
          have allowed : c.kind ∈ policy := (of_decide_eq_true wanted).1
          unfold Reactor.activate
          split
          · exact each
          · split
            · exact each
            · rename_i table _
              refine Each.update (r := { r with table }) each fun d again holds => ?_
              cases again.symm.trans found
              exact lasting.start allowed holds
        · exact each
      · exact each

theorem Each.checkAll (each : r.Each P) (ids : List Nat) : (r.checkAll policy ids).2.Each P := by
  induction ids generalizing r with
  | nil => exact each
  | cons id ids ih =>
      have first := each.checkActivate lasting id .activate
      unfold Reactor.checkAll
      split <;> rename_i eq <;> rw [eq] at first
      · exact ih first
      · exact first

theorem Each.register (each : r.Each P) (kind : Kind) (e : Endpoint) (wanted : Flags) :
    (r.register policy kind (.ofEndpoint e) wanted).2.Each P := by
  unfold Reactor.register
  split
  · exact each
  · dsimp only
    have added : (({ r with ids := r.ids.take.2 } : Reactor).add (.new r.ids.take.1 kind (.ofEndpoint e) wanted)).Each P := by
      intro c mem
      rcases List.mem_append.1 mem with old | new
      · exact each c old
      · rw [List.mem_singleton.1 new]
        exact lasting.new _ _ _ _
    have checked := added.checkActivate lasting r.ids.take.1 .activate
    split <;> rename_i eq <;> rw [eq] at checked
    · exact checked
    · exact checked.of_subset (List.dropLast_subset _)

theorem Each.unregister (each : r.Each P) (id : Nat) : (r.unregister id).2.Each P := by
  have checked := each.checkActivate lasting.idle id .deactivate
  unfold Reactor.unregister
  split <;> rename_i eq <;> rw [eq] at checked
  · exact checked
  · split
    · exact checked
    · exact checked.of_subset List.eraseP_subset

theorem Each.unregisterAll (each : r.Each P) (ids : List Nat) : (r.unregisterAll ids).Each P := by
  induction ids generalizing r with
  | nil => exact each
  | cons id ids ih => exact ih (each.unregister lasting id)

theorem Each.sendTo (each : r.Each P) (kinds : KindSet) (bytes : Bytes) : (r.sendTo kinds bytes).2.Each P :=
  Each.unregisterAll (r := { r with host := (sendEach bytes (r.targets kinds) r.host).2 }) lasting each _

theorem Each.assign (each : r.Each P) (id : Nat) (e : Endpoint) : (r.assign id e).2.Each P := by
  unfold Reactor.assign
  dsimp only
  split
  · exact each
  · split
    · exact each
    · split
      · exact each
      · rename_i receiver _
        exact Each.update (r := { r with host := (receiver.assign e r.host).2 }) each fun _ _ => lasting.take e

theorem Each.restore (each : r.Each P) {id : Nat} {receiver : Receiver}
    (held : ∀ c, r.connection? id = some c → P c → P (c.hold receiver)) : (r.restore id receiver).Each P := by
  unfold Reactor.restore
  split
  · exact each
  · rename_i c _
    have back : ((r.discardHeld c).update id (·.hold receiver)).Each P := Each.update (r := r.discardHeld c) each held
    dsimp only
    split
    · split
      · exact back.unwatchOf c
      · exact (back.unwatchOf c).update fun _ _ => lasting.pause
    · exact back

end

end Reactor

end TraceGate
