import TraceGate.Proofs.Host.Opened
import TraceGate.Proofs.Reactor.Tenure

namespace TraceGate

open Connection

namespace Reactor

variable {loan loan' : Option Loan} {r r' r'' : Reactor} {c : Connection} {id : Nat} {e : Endpoint}

structure Tidy (loan loan' : Option Loan) (r r' : Reactor) : Prop where
  tree : Host.Tree.Firm r.host.tree r'.host.tree
  loose : ∀ e, r'.Loose loan' e ↔ r.Loose loan e

structure Takes (loan : Option Loan) (e : Endpoint) (r r' : Reactor) : Prop where
  tree : Host.Tree.Firm r.host.tree r'.host.tree
  loose : ∀ x, r'.Loose loan x ↔ r.Loose loan x ∧ e ≠ x

theorem Tidy.refl (r : Reactor) : Tidy loan loan r r := ⟨.refl _, fun _ => Iff.rfl⟩

theorem Tidy.trans {loan'' : Option Loan} (first : Tidy loan loan' r r') (second : Tidy loan' loan'' r' r'') :
    Tidy loan loan'' r r'' :=
  ⟨first.tree.trans second.tree, fun e => (second.loose e).trans (first.loose e)⟩

theorem Tidy.of_quiet {host : Host} (quiet : Host.Quiet r.host host) : Tidy loan loan r { r with host } :=
  ⟨quiet.tree, fun e => and_congr_left fun _ => quiet.isOpen e⟩

theorem firm_of_shrinks {h h' : Host} (shrinks : Host.Shrinks h h') : Host.Tree.Firm h.tree h'.tree := by
  rw [shrinks.tree_eq]
  exact .refl _

theorem endpoints_split (found : r.connection? id = some c) : ∃ others : List Endpoint,
    (∀ e, e ∈ r.connections.filterMap endpoint? ↔ c.endpoint? = some e ∨ e ∈ others) ∧
    (∀ f e, e ∈ (r.update id f).connections.filterMap endpoint? ↔ (f c).endpoint? = some e ∨ e ∈ others) ∧
    ∀ e, e ∈ (r.connections.eraseP fun d => d.id == id).filterMap endpoint? ↔ e ∈ others := by
  obtain ⟨rfl, before, after, split, ahead⟩ := connection?_split found
  have middle (d : Connection) (e : Endpoint) : e ∈ (before ++ d :: after).filterMap endpoint? ↔
      d.endpoint? = some e ∨ e ∈ (before ++ after).filterMap endpoint? := by
    rw [(List.perm_middle.filterMap endpoint?).mem_iff, filterMap_cons_toList, List.mem_append, Option.mem_toList]
  refine ⟨(before ++ after).filterMap endpoint?, fun e => split ▸ middle c e, fun f e => ?_, fun e => ?_⟩
  · rw [update, split, updateFirst_append (by simp) ahead]
    exact middle (f c) e
  · rw [split, List.eraseP_append_right _ (by simpa using ahead)]
    simp

theorem drop_isOpen_held (c : Connection) (h : Host) (e : Endpoint) :
    ((c.receiver.getD .released).drop h).IsOpen e ↔ h.IsOpen e ∧ c.endpoint? ≠ some e := by
  rw [Receiver.drop_isOpen, endpoint?_eq]

theorem loose_exchange (found : r.connection? id = some c) (f : Connection → Connection) (table : Table) (e : Endpoint) :
    ({ r.discardHeld c with table }.update id f).Loose loan e ↔ r.Loose loan e ∧ (f c).endpoint? ≠ some e := by
  obtain ⟨others, held, updated, -⟩ := endpoints_split found
  have after := updated f e
  change ((c.receiver.getD .released).drop r.host).IsOpen e ∧ e ∉ (r.update id f).connections.filterMap endpoint? ++ _ ↔ _
  simp only [Loose, drop_isOpen_held, List.mem_append, held, after]
  tauto

theorem tidy_update (r : Reactor) (id : Nat) {f : Connection → Connection} (same : ∀ d, (f d).endpoint? = d.endpoint?) :
    Tidy loan loan r (r.update id f) := by
  refine ⟨.refl _, fun e => ?_⟩
  have endpoints (l : List Connection) : l.filterMap endpoint? = (l.map endpoint?).filterMap fun e => e := by simp
  rw [Loose, Loose, endpoints, endpoints, update, map_updateFirst endpoint? same]

theorem tidy_table (r : Reactor) (table : Table) : Tidy loan loan r { r with table } := ⟨.refl _, fun _ => Iff.rfl⟩

theorem tidy_unwatchOf (r : Reactor) (c : Connection) : Tidy loan loan r (r.unwatchOf c) := by
  unfold unwatchOf
  split
  · exact tidy_table r _
  · exact .refl r

theorem tidy_deactivate (found : r.connection? c.id = some c) : Tidy loan loan r (r.deactivate c) := by
  unfold Reactor.deactivate
  dsimp only
  split
  · refine (tidy_unwatchOf r c).trans ⟨firm_of_shrinks (discard_shrinks _ _), fun e => ?_⟩
    have found : (r.unwatchOf c).connection? c.id = some c := by
      unfold unwatchOf
      cases c.fd <;> exact found
    exact (loose_exchange found Connection.shut (r.unwatchOf c).table e).trans (by simp [shut_endpoint?])
  · exact (tidy_unwatchOf r c).trans (tidy_update _ c.id fun _ => rfl)

theorem tidy_activate (r : Reactor) (c : Connection) : Tidy loan loan r (r.activate c).2 := by
  unfold Reactor.activate
  split
  · exact .refl r
  · split
    · exact .refl r
    · exact (tidy_table r _).trans (tidy_update _ c.id fun _ => rfl)

theorem tidy_checkActivate (r : Reactor) (id : Nat) (policy : KindSet) (transition : Transition) :
    Tidy loan loan r (r.checkActivate id policy transition).2 := by
  unfold Reactor.checkActivate
  split
  · exact .refl r
  · rename_i c found
    obtain rfl : c.id = id := (connection?_split found).1
    dsimp only
    split
    · dsimp only
      split
      · exact .refl r
      · exact tidy_deactivate found
    · split
      · exact tidy_activate r c
      · exact .refl r
    · exact .refl r

theorem tidy_checkAll (r : Reactor) (policy : KindSet) (ids : List Nat) :
    Tidy loan loan r (r.checkAll policy ids).2 := by
  induction ids generalizing r with
  | nil => exact .refl r
  | cons id ids ih =>
      have step : Tidy loan loan r (r.checkActivate id policy .activate).2 := tidy_checkActivate r id policy .activate
      unfold Reactor.checkAll
      split <;> rename_i eq <;> rw [eq] at step
      · exact step.trans (ih _)
      · exact step

theorem tidy_remove (found : r.connection? c.id = some c) : Tidy loan loan r (r.remove c) := by
  refine ⟨firm_of_shrinks (discard_shrinks r _), fun e => ?_⟩
  obtain ⟨others, held, -, rest⟩ := endpoints_split found
  have after := rest e
  change ((c.receiver.getD .released).drop r.host).IsOpen e ∧
    e ∉ (r.connections.eraseP fun d => d.id == c.id).filterMap endpoint? ++ _ ↔ _
  simp only [Loose, drop_isOpen_held, List.mem_append, held, after]
  tauto

theorem tidy_unregister (r : Reactor) (id : Nat) : Tidy loan loan r (r.unregister id).2 := by
  have step : Tidy loan loan r (r.checkActivate id ∅ .deactivate).2 := tidy_checkActivate r id ∅ .deactivate
  unfold Reactor.unregister
  split <;> rename_i eq <;> rw [eq] at step
  · exact step
  · split
    · exact step
    · rename_i c found
      obtain rfl : c.id = id := (connection?_split found).1
      exact step.trans (tidy_remove found)

theorem tidy_unregisterAll (r : Reactor) (ids : List Nat) : Tidy loan loan r (r.unregisterAll ids) := by
  induction ids generalizing r with
  | nil => exact .refl r
  | cons id ids ih => exact (tidy_unregister r id).trans (ih _)

theorem tidy_sendTo (r : Reactor) (kinds : KindSet) (bytes : Bytes) : Tidy loan loan r (r.sendTo kinds bytes).2 :=
  (Tidy.of_quiet (still_sendEach bytes _ r.host).quiet).trans (tidy_unregisterAll _ _)

theorem Takes.then (takes : Takes loan e r r') (tidy : Tidy loan loan r' r'') : Takes loan e r r'' :=
  ⟨takes.tree.trans tidy.tree, fun x => (tidy.loose x).trans (takes.loose x)⟩

theorem Takes.after (tidy : Tidy loan loan r r') (takes : Takes loan e r' r'') : Takes loan e r r'' :=
  ⟨tidy.tree.trans takes.tree, fun x => (takes.loose x).trans (and_congr_left fun _ => tidy.loose x)⟩

theorem takes_discard (r : Reactor) (e : Endpoint) : Takes loan e r (r.discard (.ofEndpoint e)) := by
  refine ⟨firm_of_shrinks (discard_shrinks r _), fun x => ?_⟩
  change ((Receiver.ofEndpoint e).drop r.host).IsOpen x ∧ _ ↔ _
  simp only [Receiver.drop_isOpen, Receiver.ofEndpoint, Loose, ne_eq, Option.some.injEq]
  tauto

theorem takes_add (r : Reactor) (own : c.endpoint? = some e) : Takes loan e r (r.add c) := by
  refine ⟨.refl _, fun x => ?_⟩
  change r.host.IsOpen x ∧ x ∉ (r.connections ++ [c]).filterMap endpoint? ++ _ ↔ _
  simp only [Loose, List.filterMap_append, List.mem_append, List.mem_filterMap, List.mem_singleton, exists_eq_left, own,
    Option.some.injEq]
  grind

theorem Coherent.takes_register (coherent : r.Coherent loan) (loose : r.Loose loan e) (policy : KindSet) (kind : Kind)
    (wanted : Flags) : Takes loan e r (r.register policy kind (.ofEndpoint e) wanted).2 := by
  have own : ∀ e', (Receiver.ofEndpoint e).endpoint = some e' → r.Loose loan e' := by
    rintro _ ⟨⟩
    exact loose
  have added := coherent.addNew own r.ids.take.2 r.ids.take.1 kind wanted
  have numbered : Tidy loan loan r { r with ids := r.ids.take.2 } := ⟨.refl _, fun _ => Iff.rfl⟩
  generalize named : Connection.new r.ids.take.1 kind (.ofEndpoint e) wanted = c at added
  have held : c.endpoint? = some e := by rw [← named]; rfl
  have takes : Takes loan e r _ := .after numbered (takes_add _ held)
  have step := takes.then (tidy_checkActivate _ r.ids.take.1 policy .activate)
  unfold Reactor.register
  rw [if_neg (by simp [Receiver.isReleased, Receiver.ofEndpoint])]
  dsimp only
  rw [named]
  split <;> rename_i eq
  · rw [eq] at step
    exact step
  · have unchanged := (added.checkActivate_error (congrArg Prod.fst eq)).1
    rw [eq] at unchanged
    dsimp only at unchanged ⊢
    have same : c.kind = kind := by rw [← named]; rfl
    rw [unchanged, ← same, withdraw_add]
    exact .after numbered (takes_discard _ e)

theorem takes_assign (r : Reactor) (id : Nat) (e : Endpoint) : Takes loan e r (r.assign id e).2 := by
  unfold Reactor.assign
  dsimp only
  split
  · exact takes_discard r e
  · rename_i c found
    split
    · exact takes_discard r e
    · split
      · exact takes_discard r e
      · rename_i receiver held
        refine ⟨firm_of_shrinks (discard_shrinks r receiver), fun x => ?_⟩
        have after := @loose_exchange loan r c id found (·.hold (.ofEndpoint e)) r.table x
        rw [discardHeld, held] at after
        exact after.trans (and_congr_right fun _ => not_congr (by simp [endpoint?, hold, Receiver.ofEndpoint]))

theorem loose_lent {id : Nat} {own : Option Endpoint} :
    r.Loose (some ⟨id, own⟩) e ↔ r.Loose none e ∧ own ≠ some e := by
  simp only [Loose, Loan.endpoints, List.mem_append, Option.bind_some, Option.mem_toList, Option.bind_none,
    Option.toList_none, List.append_nil]
  tauto

theorem tidy_lend {receiver : Receiver} (found : r.connection? id = some c) (held : c.receiver = some receiver) :
    Tidy none (some ⟨id, receiver.endpoint⟩) r (r.update id Connection.lend) := by
  refine ⟨.refl _, fun e => ?_⟩
  obtain ⟨others, before, updated, -⟩ := endpoints_split found
  have after := updated Connection.lend e
  have own := endpoint?_of_receiver held
  rw [loose_lent]
  change (r.host.IsOpen e ∧ e ∉ (r.update id Connection.lend).connections.filterMap endpoint? ++ _) ∧ _ ↔ _
  simp only [Loose, Loan.endpoints, Option.bind_none, Option.toList_none, List.append_nil, before, after, own]
  simp only [endpoint?, Connection.lend, Option.bind_none, reduceCtorEq, false_or]
  tauto

theorem tidy_restore (r : Reactor) (id : Nat) (receiver : Receiver) :
    Tidy (some ⟨id, receiver.endpoint⟩) none r (r.restore id receiver) := by
  unfold Reactor.restore
  split
  · refine ⟨firm_of_shrinks (discard_shrinks r receiver), fun e => ?_⟩
    rw [loose_lent]
    change (receiver.drop r.host).IsOpen e ∧ _ ↔ _
    simp only [Receiver.drop_isOpen, Loose]
    tauto
  · rename_i c found
    have back : Tidy (some ⟨id, receiver.endpoint⟩) none r ((r.discardHeld c).update id (·.hold receiver)) :=
      ⟨firm_of_shrinks (discard_shrinks r _), fun e => (loose_exchange found _ r.table e).trans loose_lent.symm⟩
    dsimp only
    split
    · refine (back.trans (tidy_unwatchOf _ c)).trans ?_
      split
      · exact tidy_table _ _
      · exact tidy_update _ id fun _ => rfl
    · exact back

end Reactor

end TraceGate
