import TraceGate.Proofs.Reactor.Turns

/-!
# Active connections come first

The counter of connections starts again after `2 ^ 32 - 1` numbers, so several connections may have one number. Only
the first of them can be active: a connection comes last and idle, and it is the first one that is then activated. So
the connections to which nothing can be sent, which are removed by their numbers, are the ones that are removed.
-/

namespace TraceGate

open Connection Relation

namespace Reactor

def Foremost (r : Reactor) : Prop := r.connections.Pairwise fun c d => c.id = d.id → ¬d.IsActive

variable {r r' : Reactor} {d : Connection} {loan : Option Loan}

theorem Foremost.found (foremost : r.Foremost) (mem : d ∈ r.connections) (active : d.IsActive) :
    r.connection? d.id = some d := by
  obtain ⟨before, after, split⟩ := List.append_of_mem mem
  rw [Foremost, split] at foremost
  have others : ∀ c ∈ before, ¬(c.id == d.id) := by
    intro c among same
    exact (List.pairwise_append.1 foremost).2.2 c among d List.mem_cons_self (beq_iff_eq.1 same) active
  rw [connection?, split, List.find?_append, List.find?_eq_none.2 others, Option.none_or]
  exact List.find?_cons_of_pos (beq_self_eq_true d.id)

theorem Foremost.of_sublist (foremost : r.Foremost) (sublist : r'.connections.Sublist r.connections) : r'.Foremost :=
  foremost.sublist sublist

theorem Foremost.update (foremost : r.Foremost) (f : Connection → Connection) (same : ∀ c, (f c).id = c.id) (id : Nat) :
    (r.update id f).Foremost := by
  unfold Foremost at foremost
  rw [Foremost, Reactor.update]
  dsimp only
  generalize r.connections = connections at foremost
  induction connections with
  | nil => exact .nil
  | cons c l ih =>
      obtain ⟨head, tail⟩ := List.pairwise_cons.1 foremost
      rw [updateFirst]
      split
      · refine .cons (fun d mem shared => head d mem ?_) tail
        rw [← same c]
        exact shared
      · rename_i other
        refine .cons (fun d mem shared => ?_) (ih tail)
        rcases mem_updateFirst mem with old | ⟨b, -, hit, rfl⟩
        · exact head d old shared
        · rw [same b, beq_iff_eq.1 hit] at shared
          exact absurd (beq_iff_eq.2 shared) other

theorem Foremost.unwatchOf (foremost : r.Foremost) (c : Connection) : (r.unwatchOf c).Foremost := by
  unfold Reactor.unwatchOf
  cases c.fd <;> exact foremost

theorem Foremost.deactivate (foremost : r.Foremost) (c : Connection) : (r.deactivate c).Foremost := by
  have unwatched := foremost.unwatchOf c
  unfold Reactor.deactivate
  dsimp only
  split
  · exact Foremost.update (r := (r.unwatchOf c).discardHeld c) unwatched shut (fun _ => rfl) c.id
  · exact unwatched.update pause (fun _ => rfl) c.id

theorem Foremost.activate (foremost : r.Foremost) (c : Connection) : (r.activate c).2.Foremost := by
  unfold Reactor.activate
  split
  · exact foremost
  · split
    · exact foremost
    · rename_i table _
      exact Foremost.update (r := { r with table }) foremost start (fun _ => rfl) c.id

theorem Foremost.checkActivate (foremost : r.Foremost) (id : Nat) (policy : KindSet) (transition : Transition) :
    (r.checkActivate id policy transition).2.Foremost := by
  unfold Reactor.checkActivate
  split
  · exact foremost
  · dsimp only
    split
    · split
      · exact foremost
      · exact foremost.deactivate _
    · split
      · exact foremost.activate _
      · exact foremost
    · exact foremost

theorem Foremost.checkAll (foremost : r.Foremost) (policy : KindSet) (ids : List Nat) :
    (r.checkAll policy ids).2.Foremost := by
  induction ids generalizing r with
  | nil => exact foremost
  | cons id ids ih =>
      have checked := foremost.checkActivate id policy .activate
      unfold Reactor.checkAll
      split <;> rename_i eq <;> rw [eq] at checked
      · exact ih checked
      · exact checked

theorem Foremost.add (foremost : r.Foremost) (c : Connection) (idle : ¬c.IsActive) : (r.add c).Foremost := by
  refine List.pairwise_append.2 ⟨foremost, List.pairwise_singleton _ _, fun b _ d mem _ => ?_⟩
  rw [List.mem_singleton.1 mem]
  exact idle

theorem Foremost.register (foremost : r.Foremost) (policy : KindSet) (kind : Kind) (receiver : Receiver)
    (wanted : Flags) : (r.register policy kind receiver wanted).2.Foremost := by
  unfold Reactor.register
  split
  · exact foremost
  · dsimp only
    have added := Foremost.add (r := { r with ids := r.ids.take.2 }) foremost (.new r.ids.take.1 kind receiver wanted)
      (by simp [Connection.new])
    have checked := added.checkActivate r.ids.take.1 policy .activate
    split <;> rename_i eq <;> rw [eq] at checked
    · exact checked
    · exact checked.of_sublist (List.dropLast_sublist _)

theorem Foremost.assign (foremost : r.Foremost) (id : Nat) (e : Endpoint) : (r.assign id e).2.Foremost := by
  unfold Reactor.assign
  dsimp only
  split
  · exact foremost
  · split
    · exact foremost
    · split
      · exact foremost
      · rename_i receiver _
        exact Foremost.update (r := { r with host := (receiver.assign e r.host).2 }) foremost (·.hold _) (fun _ => rfl) id

theorem Coherent.unregister_foremost (coherent : r.Coherent loan) (foremost : r.Foremost) (id : Nat) :
    (r.unregister id).2.Foremost := by
  apply foremost.of_sublist
  rw [(coherent.unregister_connections id).1]
  exact List.eraseP_sublist

theorem Coherent.unregisterAll_foremost (coherent : r.Coherent loan) (foremost : r.Foremost) (ids : List Nat) :
    (r.unregisterAll ids).Foremost := by
  induction ids generalizing r with
  | nil => exact foremost
  | cons id ids ih => exact ih (coherent.unregister id).1 (coherent.unregister_foremost foremost id)

theorem Foremost.restore (foremost : r.Foremost) (id : Nat) (receiver : Receiver) : (r.restore id receiver).Foremost := by
  unfold Reactor.restore
  split
  · exact foremost
  · rename_i c _
    have back := Foremost.update (r := r.discardHeld c) foremost (·.hold receiver) (fun _ => rfl) id
    dsimp only
    split
    · split
      · exact back.unwatchOf c
      · exact (back.unwatchOf c).update pause (fun _ => rfl) id
    · exact back

theorem Operation.foremost {gives : Nat → Endpoint → Prop} {error : Option EventError}
    (operation : Operation gives loan r error r') (coherent : r.Coherent loan) (foremost : r.Foremost) :
    r'.Foremost := by
  cases operation with
  | register policy kind receiver wanted loose given => exact foremost.register policy kind receiver wanted
  | unregister id => exact coherent.unregister_foremost foremost id
  | checkActivate id policy transition => exact foremost.checkActivate id policy transition
  | reconcile policy kinds => exact foremost.checkAll policy _
  | assign id e loose given => exact foremost.assign id e
  | sendTo kinds bytes =>
      have grown := coherent.grow (sendEach_grows bytes (r.connections.filter fun c => c.IsActive ∧ c.kind ∈ kinds) _)
      exact grown.unregisterAll_foremost foremost _
  | cleanup => exact coherent.unregisterAll_foremost foremost _

theorem Elapses.foremost (elapses : Elapses r r') (foremost : r.Foremost) : r'.Foremost := by
  rw [elapses.rest]
  exact foremost

variable {σ : Type} {gives : Nat → Endpoint → Prop} {handlers : Kind → Handler σ} {state : σ}

theorem Foremost.attend (foremost : r.Foremost) (coherent : r.Coherent none)
    (acts : ∀ kind, (handlers kind).Acts gives) (s : Sighting) (state : σ) :
    (r.attend handlers s state).2.1.Foremost := by
  refine coherent.attend_induction (I := fun _ q => q.Foremost) acts foremost ?_ ?_ ?_ ?_ s state
  · exact fun id => coherent.unregister_foremost foremost id
  · exact fun c _ _ _ => foremost.update lend (fun _ => rfl) c.id
  · intro id a b step coherent foremost
    cases step with
    | operation operation => exact operation.foremost coherent foremost
    | outside elapses isOpen given => exact elapses.foremost foremost
  · exact fun id receiver q foremost => foremost.restore id receiver

theorem Foremost.roused (foremost : r.Foremost) (wait : Wait) : (r.roused wait).Foremost := by
  rw [Foremost, (roused_spec wait r).1]
  exact foremost

theorem Reachable.foremost (reachable : r.Reachable) : r.Foremost := by
  induction reachable with
  | new sound ids room => exact .nil
  | operation before operation ih => exact operation.foremost before.coherent ih
  | outside _ elapses ih => exact elapses.foremost ih
  | round before wait acts state ih =>
      exact (before.coherent.turn_induction acts wait state (ih.roused wait)
        fun _ s state coherent foremost => foremost.attend coherent acts s state).2

theorem Reachable.turn_foremost (reachable : r.Reachable) (acts : ∀ kind, (handlers kind).Acts gives) {wait : Wait}
    {o : Occasion σ} (mem : o ∈ r.turns wait handlers state) : o.reactor.Coherent none ∧ o.reactor.Foremost :=
  (reachable.coherent.turn_induction acts wait state (reachable.foremost.roused wait)
    fun _ s state coherent foremost => foremost.attend coherent acts s state).1 o mem

def targets (kinds : KindSet) (r : Reactor) : List Connection :=
  r.connections.filter fun c => c.IsActive ∧ c.kind ∈ kinds

def sent (bytes : Bytes) (c : Connection) (h : Host) : Host :=
  match c.receiver with
  | none => h
  | some receiver => (receiver.send bytes h).2

inductive Refuses (bytes : Bytes) : List Connection → Host → Connection → Prop
  | here {c : Connection} {l : List Connection} {h : Host} {receiver : Receiver} {error : SystemError}
      (held : c.receiver = some receiver) (failed : (receiver.send bytes h).1 = .error error) :
      Refuses bytes (c :: l) h c
  | there {b c : Connection} {l : List Connection} {h : Host} (later : Refuses bytes l (sent bytes c h) b) :
      Refuses bytes (c :: l) h b

variable {bytes : Bytes} {b c : Connection} {l : List Connection} {h : Host} {r : Reactor} {kinds : KindSet} {id : Nat}

theorem Refuses.mem (refuses : Refuses bytes l h b) : b ∈ l := by
  induction refuses with
  | here held failed => exact List.mem_cons_self
  | there later ih => exact List.mem_cons_of_mem _ ih

theorem mem_failed (member : id ∈ (sendEach bytes l h).1.2) : ∃ b, Refuses bytes l h b ∧ b.id = id := by
  induction l generalizing h with
  | nil => cases member
  | cons c l ih =>
      have later : id ∈ (sendEach bytes l (sent bytes c h)).1.2 → ∃ b, Refuses bytes (c :: l) h b ∧ b.id = id := by
        intro member
        obtain ⟨b, refuses, own⟩ := ih member
        exact ⟨b, .there refuses, own⟩
      unfold sent at later
      unfold sendEach at member
      cases held : c.receiver with
      | none =>
          rw [held] at later member
          exact later member
      | some receiver =>
          rw [held] at later member
          dsimp only at later member
          rcases outcome : receiver.send bytes h with ⟨error | done, host⟩ <;> rw [outcome] at later member
          · rcases List.mem_cons.1 member with rfl | member
            · exact ⟨c, .here held (congrArg Prod.fst outcome), rfl⟩
            · exact later member
          · exact later member

theorem failed_sublist (bytes : Bytes) (l : List Connection) (h : Host) :
    (sendEach bytes l h).1.2.Sublist (l.map (·.id)) := by
  induction l generalizing h with
  | nil => exact List.Sublist.refl _
  | cons c l ih =>
      rw [List.map_cons]
      unfold sendEach
      split
      · exact (ih h).cons _
      · split
        · exact (ih _).cons _
        · exact (ih _).cons_cons _

theorem Foremost.refusers (foremost : r.Foremost) (kinds : KindSet) (bytes : Bytes) (h : Host) :
    (sendEach bytes (r.targets kinds) h).1.2.Nodup ∧ ∀ id ∈ (sendEach bytes (r.targets kinds) h).1.2,
      ∃ b, r.connection? id = some b ∧ b.IsActive ∧ b.kind ∈ kinds ∧ Refuses bytes (r.targets kinds) h b := by
  have target : ∀ b ∈ r.targets kinds, b ∈ r.connections ∧ b.IsActive ∧ b.kind ∈ kinds := by
    intro b mem
    simpa [targets] using mem
  constructor
  · apply (failed_sublist bytes (r.targets kinds) h).nodup
    rw [List.Nodup, List.pairwise_map]
    exact (foremost.sublist List.filter_sublist).imp_of_mem fun _ mem apart same => apart same (target _ mem).2.1
  · intro id member
    obtain ⟨b, refuses, rfl⟩ := mem_failed member
    obtain ⟨mem, active, kind⟩ := target b refuses.mem
    exact ⟨b, foremost.found mem active, active, kind, refuses⟩

theorem Coherent.sendTo_keys {loan : Option Loan} (coherent : r.Coherent loan) (kinds : KindSet) (bytes : Bytes) :
    (r.sendTo kinds bytes).2.keys = strike r.keys (sendEach bytes (r.targets kinds) r.host).1.2 :=
  ((coherent.grow (sendEach_grows bytes (r.targets kinds) r.host)).unregisterAll_keys _).1

theorem Coherent.sendTo_ids {loan : Option Loan} (coherent : r.Coherent loan) (kinds : KindSet) (bytes : Bytes) :
    (r.sendTo kinds bytes).2.ids = r.ids :=
  ((coherent.grow (sendEach_grows bytes (r.targets kinds) r.host)).unregisterAll_keys _).2

end Reactor

end TraceGate
