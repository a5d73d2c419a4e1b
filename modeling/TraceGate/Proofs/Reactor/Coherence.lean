import TraceGate.Proofs.Reactor.Books
import TraceGate.Proofs.Reactor.First
import TraceGate.Reactor.Turn

/-!
# Coherence

`Reactor.Coherent` is what every operation of a reactor preserves: its books are right, every
connection has its receiver, and every kind is counted. While a handler runs, the first connection with
its number may be without its receiver (`Loan`); all else holds as before.
-/

namespace TraceGate

open Connection

/-- What a handler was lent: the number of its connection, and the endpoint of the receiver. -/
structure Loan where
  id : Nat
  endpoint : Option Endpoint

namespace Loan

def endpoints (loan : Option Loan) : List Endpoint := (loan.bind (·.endpoint)).toList

def keepers (loan : Option Loan) (connections : List Connection) : List Connection :=
  match loan with
  | none => connections
  | some loan => connections.eraseP fun c => c.id == loan.id

end Loan

namespace Reactor

structure Coherent (loan : Option Loan) (r : Reactor) : Prop where
  sound : r.host.Sound
  books : Books r.connections r.table r.host (Loan.endpoints loan)
  present : ∀ c ∈ Loan.keepers loan r.connections, c.receiver.isSome
  counted : ∀ kind, r.count kind = (r.connections.map (·.kind)).count kind

/-- The endpoint is open, and no connection and no handler holds it. -/
def Loose (loan : Option Loan) (r : Reactor) (e : Endpoint) : Prop :=
  r.host.IsOpen e ∧ e ∉ r.connections.filterMap endpoint? ++ Loan.endpoints loan

end Reactor

namespace Loan

variable {loan : Option Loan} {connections : List Connection} {c : Connection}

theorem keepers_updateFirst {p : Connection → Bool} {f : Connection → Connection}
    (present : ∀ c ∈ keepers loan connections, c.receiver.isSome) (id : ∀ c, (f c).id = c.id)
    (held : ∀ c, c.receiver.isSome → (f c).receiver.isSome) :
    ∀ c ∈ keepers loan (updateFirst p f connections), c.receiver.isSome := by
  intro d mem
  have source : d ∈ keepers loan connections ∨ ∃ c ∈ keepers loan connections, p c ∧ d = f c := by
    cases loan with
    | none => exact mem_updateFirst mem
    | some loan => exact mem_eraseP_updateFirst (fun c => by rw [id]) mem
  rcases source with old | ⟨c, origin, -, rfl⟩
  · exact present d old
  · exact held c (present c origin)

theorem mem_keepers_append {new : Connection} (mem : c ∈ keepers loan (connections ++ [new])) :
    c ∈ keepers loan connections ∨ c = new := by
  cases loan with
  | none => simpa [keepers] using mem
  | some loan =>
      rw [keepers, List.eraseP_append] at mem
      split at mem
      · simpa [keepers] using mem
      · rename_i absent
        rcases List.mem_append.1 mem with old | new
        · refine Or.inl ?_
          rwa [keepers, List.eraseP_of_forall_not]
          intro d mem hit
          exact absent (List.any_eq_true.2 ⟨d, mem, hit⟩)
        · exact Or.inr (by simpa using List.eraseP_subset new)

theorem keepers_erase {id : Nat} (mem : c ∈ keepers loan (connections.eraseP fun c => c.id == id)) :
    c ∈ keepers loan connections := by
  cases loan with
  | none => exact List.eraseP_subset mem
  | some loan =>
      rw [keepers] at mem ⊢
      by_cases same : loan.id = id
      · rw [same] at mem ⊢
        exact List.eraseP_subset mem
      · rw [List.eraseP_comm] at mem
        · exact List.eraseP_subset mem
        · intro d _
          by_cases first : d.id = id
          · exact Or.inr (by simp [first, Ne.symm same])
          · exact Or.inl (by simp [first])

end Loan

namespace Reactor

variable {r : Reactor} {c : Connection} {id : Nat} {loan : Option Loan}

theorem connection?_split (found : r.connection? id = some c) :
    c.id = id ∧ ∃ before after, r.connections = before ++ c :: after ∧ ∀ d ∈ before, ¬(d.id == id) = true := by
  obtain ⟨hit, before, after, split, ahead⟩ := List.find?_eq_some_iff_append.1 found
  exact ⟨by simpa using hit, before, after, split, fun d mem => by simpa using ahead d mem⟩

theorem connection?_mem (found : r.connection? id = some c) : c ∈ r.connections :=
  List.mem_of_find?_eq_some found

theorem count_setCount (r : Reactor) (kind kind' : Kind) (n : Nat) :
    (r.setCount kind n).count kind' = if kind' = kind then n else r.count kind' := by
  have bound := kind'.index_lt
  change (r.counts.set kind.index n kind.index_lt)[kind'.index] = _
  rw [Vector.getElem_set]
  by_cases same : kind' = kind
  · simp [same]
  · have apart : ¬kind.index = kind'.index := fun eq => same (Kind.index_inj eq).symm
    rw [if_neg same, if_neg apart]
    rfl

theorem update_connection? {f : Connection → Connection} (same : ∀ d, (f d).id = d.id)
    (found : r.connection? id = some c) : (r.update id f).connection? id = some (f c) := by
  obtain ⟨rfl, before, after, split, ahead⟩ := connection?_split found
  apply List.find?_eq_some_iff_append.2
  refine ⟨by simp [same], before, after, ?_, fun d mem => by simpa using ahead d mem⟩
  rw [update, split]
  exact updateFirst_append (by simp) ahead

end Reactor

theorem Books.replace {r : Reactor} {id : Nat} {c : Connection} {lent lent' : List Endpoint} {table : Table}
    {host : Host} {f : Connection → Connection} (found : r.connection? id = some c)
    (books : Books r.connections r.table r.host lent)
    (change : ∀ l, r.connections.Perm (c :: l) → Books (c :: l) r.table r.host lent →
      Books (f c :: l) table host lent') :
    Books (r.update id f).connections table host lent' := by
  obtain ⟨rfl, before, after, split, ahead⟩ := Reactor.connection?_split found
  rw [Reactor.update, split, updateFirst_append (by simp) ahead]
  rw [split] at books change
  exact (change _ List.perm_middle (books.perm List.perm_middle)).perm List.perm_middle.symm

namespace Reactor

variable {r : Reactor} {c : Connection} {id : Nat} {loan : Option Loan}

theorem Coherent.replace {f : Connection → Connection} {table : Table} {host : Host}
    (coherent : r.Coherent loan) (found : r.connection? id = some c)
    (key : ∀ d, (f d).id = d.id) (kind : ∀ d, (f d).kind = d.kind)
    (held : ∀ d, d.receiver.isSome → (f d).receiver.isSome) (sound : host.Sound)
    (change : ∀ l, r.connections.Perm (c :: l) → Books (c :: l) r.table r.host (Loan.endpoints loan) →
      Books (f c :: l) table host (Loan.endpoints loan)) :
    ({ r with table, host }.update id f).Coherent loan where
  sound := sound
  books := Books.replace (r := r) found coherent.books change
  present := Loan.keepers_updateFirst coherent.present key held
  counted k := by
    have kinds := map_updateFirst (p := fun d => d.id == id) (l := r.connections) (·.kind) kind
    exact (coherent.counted k).trans (congrArg (List.count k) kinds.symm)

theorem Coherent.known (coherent : r.Coherent loan) (found : r.connection? id = some c) (active : c.IsActive) :
    ∃ fd, c.fd = some fd := by
  rcases (coherent.books.settled c (connection?_mem found)).activity with inactive | ⟨-, known⟩
  · rw [IsActive, inactive] at active
    cases active
  · exact Option.isSome_iff_exists.1 known

theorem Coherent.deactivate (coherent : r.Coherent loan) (found : r.connection? c.id = some c)
    (active : c.IsActive) : (r.deactivate c).Coherent loan := by
  obtain ⟨fd, known⟩ := coherent.known found active
  rw [Reactor.deactivate, unwatchOf, known]
  dsimp only
  split
  · apply coherent.replace found (f := Connection.shut) (fun _ => rfl) (fun _ => rfl)
    · intro d held
      simpa [Connection.shut] using held
    · exact (Receiver.drop_shrinks _ _).sound coherent.sound
    · intro l _ books
      exact books.shut active known books.tail_isOpen_drop
  · apply coherent.replace found (f := Connection.pause) (fun _ => rfl) (fun _ => rfl) (fun _ => id)
    · exact coherent.sound
    · intro l _ books
      exact books.pause active known

theorem Coherent.activate (coherent : r.Coherent loan) (found : r.connection? c.id = some c)
    (inactive : c.activity = .inactive) : (r.activate c).2.Coherent loan := by
  unfold Reactor.activate
  split
  · exact coherent
  · rename_i fd known
    split
    · exact coherent
    · rename_i table enabled
      apply coherent.replace found (f := Connection.start) (fun _ => rfl) (fun _ => rfl) (fun _ => id)
      · exact coherent.sound
      · intro l _ books
        exact books.start inactive known enabled

theorem activate_error {error : EventError} (failed : (r.activate c).1 = .error error) :
    (r.activate c).2 = r ∧ (∀ id activity, error ≠ .invalidStatus id activity) := by
  unfold Reactor.activate at failed ⊢
  split at failed
  · cases failed
  · rename_i fd known
    split at failed <;> rename_i outcome enabled
    · cases failed
      refine ⟨rfl, ?_⟩
      rintro id activity rfl
      unfold Table.enable at enabled
      repeat' split at enabled
      all_goals cases enabled
    · cases failed

theorem Coherent.checkActivate_cases (coherent : r.Coherent loan) (found : r.connection? id = some c)
    (policy : KindSet) (transition : Transition) :
    (c.IsActive ↔ c.kind ∈ policy ∧ transition = .activate) ∧ r.checkActivate id policy transition = (.ok (), r) ∨
    (c.IsActive ∧ ¬(c.kind ∈ policy ∧ transition = .activate)) ∧
      r.checkActivate id policy transition = (.ok (), r.deactivate c) ∨
    (c.activity = .inactive ∧ c.kind ∈ policy ∧ transition = .activate) ∧
      r.checkActivate id policy transition = r.activate c := by
  unfold Reactor.checkActivate
  simp only [found, decide_eq_true_eq]
  by_cases wanted : c.kind ∈ policy ∧ transition = .activate
  · rcases (coherent.books.settled c (connection?_mem found)).activity with inactive | ⟨active, -⟩
    · simp [wanted, inactive]
    · simp [wanted, active, IsActive]
  · rcases (coherent.books.settled c (connection?_mem found)).activity with inactive | ⟨active, -⟩
    · simp [wanted, inactive, IsActive]
    · simp [wanted, active, IsActive]

theorem checkActivate_of_none (absent : r.connection? id = none) (policy : KindSet) (transition : Transition) :
    r.checkActivate id policy transition = (.error (.connectionNotFound id), r) := by
  unfold Reactor.checkActivate
  rw [absent]

theorem Coherent.checkActivate (coherent : r.Coherent loan) (id : Nat) (policy : KindSet)
    (transition : Transition) : (r.checkActivate id policy transition).2.Coherent loan := by
  cases found : r.connection? id with
  | none =>
      rw [checkActivate_of_none found]
      exact coherent
  | some c =>
      obtain rfl : c.id = id := (connection?_split found).1
      rcases coherent.checkActivate_cases found policy transition with
        ⟨-, eq⟩ | ⟨⟨active, -⟩, eq⟩ | ⟨⟨inactive, -⟩, eq⟩ <;> rw [eq]
      · exact coherent
      · exact coherent.deactivate found active
      · exact coherent.activate found inactive

theorem Coherent.checkActivate_error (coherent : r.Coherent loan) {policy : KindSet} {transition : Transition}
    {error : EventError} (failed : (r.checkActivate id policy transition).1 = .error error) :
    (r.checkActivate id policy transition).2 = r ∧ ∀ id activity, error ≠ .invalidStatus id activity := by
  cases found : r.connection? id with
  | none =>
      rw [checkActivate_of_none found] at failed ⊢
      cases failed
      exact ⟨rfl, fun _ _ => by simp⟩
  | some c =>
      rcases coherent.checkActivate_cases found policy transition with ⟨-, eq⟩ | ⟨-, eq⟩ | ⟨-, eq⟩ <;>
        rw [eq] at failed ⊢
      · cases failed
      · cases failed
      · exact activate_error failed

theorem Coherent.checkAll (policy : KindSet) (ids : List Nat) (coherent : r.Coherent loan) :
    (r.checkAll policy ids).2.Coherent loan ∧
      ∀ id activity, (r.checkAll policy ids).1 ≠ .error (.invalidStatus id activity) := by
  induction ids generalizing r with
  | nil => exact ⟨coherent, fun _ _ => by simp [Reactor.checkAll]⟩
  | cons id ids ih =>
      have step := coherent.checkActivate id policy .activate
      unfold Reactor.checkAll
      split <;> rename_i outcome eq <;> rw [eq] at step
      · exact ih step
      · refine ⟨step, fun d activity bad => ?_⟩
        cases bad
        exact (coherent.checkActivate_error (by rw [eq])).2 d activity rfl

theorem Coherent.remove (coherent : r.Coherent loan) (found : r.connection? id = some c)
    (inactive : c.activity = .inactive) :
    (r.remove c).Coherent loan := by
  obtain ⟨rfl, before, after, split, ahead⟩ := connection?_split found
  have erased : r.connections.eraseP (fun d => d.id == c.id) = before ++ after := by
    rw [split, List.eraseP_append_right _ (by simpa using ahead)]
    simp
  refine ⟨(Receiver.drop_shrinks _ _).sound coherent.sound, ?_, fun d mem => ?_, fun kind => ?_⟩
  · have books := coherent.books
    rw [split] at books
    have head := books.perm List.perm_middle
    have rest := head.remove inactive head.tail_isOpen_drop
    rwa [← erased] at rest
  · exact coherent.present d (Loan.keepers_erase mem)
  · have total := coherent.counted kind
    change (r.setCount c.kind (r.count c.kind - 1)).count kind = _
    rw [count_setCount, Reactor.remove]
    dsimp only
    rw [erased]
    rw [split, List.map_append, List.map_cons, List.count_append, List.count_cons] at total
    rw [List.map_append, List.count_append]
    by_cases same : kind = c.kind
    · subst same
      simp only [beq_self_eq_true, if_true] at total ⊢
      omega
    · rw [if_neg same]
      simp only [beq_iff_eq, Ne.symm same, if_false] at total
      omega

theorem deactivate_connection? (found : r.connection? c.id = some c) :
    (r.deactivate c).connection? c.id = some (if c.kind = .clientConnect then c.shut else c.pause) := by
  unfold Reactor.deactivate unwatchOf
  dsimp only
  split
  · refine update_connection? (fun _ => rfl) ?_
    cases c.fd <;> exact found
  · refine update_connection? (fun _ => rfl) ?_
    cases c.fd <;> exact found

theorem Coherent.checkActivate_deactivate (coherent : r.Coherent loan) (found : r.connection? id = some c) :
    ∃ r' c', r.checkActivate id ∅ .deactivate = (.ok (), r') ∧ r'.connection? id = some c' ∧
      c'.activity = .inactive ∧ c'.kind = c.kind := by
  obtain rfl : c.id = id := (connection?_split found).1
  rcases coherent.checkActivate_cases found ∅ .deactivate with ⟨idle, eq⟩ | ⟨-, eq⟩ | ⟨⟨-, -, bad⟩, -⟩
  · have settled := coherent.books.settled c (connection?_mem found)
    exact ⟨r, c, eq, found, settled.inactive (by simp [idle]), rfl⟩
  · refine ⟨_, _, eq, deactivate_connection? found, ?_, ?_⟩ <;> split <;> rfl
  · cases bad

theorem Coherent.unregister (coherent : r.Coherent loan) (id : Nat) : (r.unregister id).2.Coherent loan ∧
    ∀ d activity, (r.unregister id).1 ≠ .error (.invalidStatus d activity) := by
  unfold Reactor.unregister
  cases found : r.connection? id with
  | none =>
      rw [checkActivate_of_none found]
      exact ⟨coherent, fun _ _ => by simp⟩
  | some c =>
      obtain ⟨r', c', eq, found', inactive, -⟩ := coherent.checkActivate_deactivate found
      have coherent' := coherent.checkActivate id ∅ .deactivate
      rw [eq] at coherent' ⊢
      dsimp only
      rw [found']
      exact ⟨Coherent.remove coherent' found' inactive, fun _ _ => by simp⟩

theorem Coherent.unregisterAll (ids : List Nat) (coherent : r.Coherent loan) :
    (r.unregisterAll ids).Coherent loan := by
  induction ids generalizing r with
  | nil => exact coherent
  | cons id ids ih => exact ih (coherent.unregister id).1

theorem Coherent.grow (coherent : r.Coherent loan) {host : Host} (grows : Host.Grows r.host host) :
    ({ r with host } : Reactor).Coherent loan :=
  ⟨grows.sound coherent.sound, coherent.books.grow grows, coherent.present, coherent.counted⟩

theorem Coherent.discard (coherent : r.Coherent loan) (receiver : Receiver)
    (loose : ∀ e, receiver.endpoint = some e → r.Loose loan e) : (r.discard receiver).Coherent loan := by
  refine ⟨(receiver.drop_shrinks _).sound coherent.sound, ?_, coherent.present, coherent.counted⟩
  apply coherent.books.keep
  intro e mem
  exact (receiver.drop_isOpen _ e).2 ⟨coherent.books.isOpen e mem, fun eq => (loose e eq).2 mem⟩

theorem setCount_setCount (r : Reactor) (kind : Kind) (n m : Nat) :
    (r.setCount kind n).setCount kind m = r.setCount kind m := by
  simp [setCount]

theorem setCount_count (r : Reactor) (kind : Kind) : r.setCount kind (r.count kind) = r := by
  have bound := kind.index_lt
  have same : r.counts.set kind.index (r.counts[kind.index]) bound = r.counts := by simp
  exact congrArg (fun counts => ({ r with counts } : Reactor)) same

theorem Coherent.add (coherent : r.Coherent loan) (inactive : c.activity = .inactive) (settled : c.Settled)
    (held : c.receiver.isSome) (loose : ∀ e, c.endpoint? = some e → r.Loose loan e) :
    (r.add c).Coherent loan := by
  refine ⟨coherent.sound, ?_, fun d mem => ?_, fun other => ?_⟩
  · exact (coherent.books.add inactive settled loose).perm (List.perm_append_singleton _ _).symm
  · rcases Loan.mem_keepers_append mem with old | rfl
    · exact coherent.present d old
    · exact held
  · have total := coherent.counted other
    change (r.setCount c.kind (r.count c.kind + 1)).count other = ((r.connections ++ [c]).map (·.kind)).count other
    rw [count_setCount, List.map_append, List.count_append, ← total]
    by_cases same : other = c.kind
    · simp [same]
    · simp [same, Ne.symm same]

theorem withdraw_add (r : Reactor) (c : Connection) (receiver : Receiver) :
    (r.add c).withdraw receiver c.kind = r.discard receiver := by
  have back : ((r.setCount c.kind (r.count c.kind + 1)).setCount c.kind (r.count c.kind)).counts = r.counts := by
    rw [setCount_setCount, setCount_count]
  have counted : (r.add c).count c.kind = r.count c.kind + 1 := by
    rw [show (r.add c).count c.kind = (r.setCount c.kind (r.count c.kind + 1)).count c.kind from rfl]
    simp [count_setCount]
  rw [withdraw, counted, Nat.add_sub_cancel]
  simp only [Reactor.add, discard, setCount, List.dropLast_concat] at back ⊢
  rw [back]

theorem Coherent.addNew (coherent : r.Coherent loan) {receiver : Receiver}
    (loose : ∀ e, receiver.endpoint = some e → r.Loose loan e) (ids : Ids) (id : Nat) (kind : Kind) (wanted : Flags) :
    (({ r with ids } : Reactor).add (Connection.new id kind receiver wanted)).Coherent loan := by
  have numbered : ({ r with ids } : Reactor).Coherent loan :=
    ⟨coherent.sound, coherent.books, coherent.present, coherent.counted⟩
  refine numbered.add rfl ⟨Or.inl rfl, ?_⟩ rfl loose
  rintro _ ⟨⟩
  rfl

theorem Coherent.register (coherent : r.Coherent loan) {receiver : Receiver}
    (loose : ∀ e, receiver.endpoint = some e → r.Loose loan e) (policy : KindSet) (kind : Kind) (wanted : Flags) :
    (r.register policy kind receiver wanted).2.Coherent loan ∧
      ∀ d activity, (r.register policy kind receiver wanted).1 ≠ .error (.invalidStatus d activity) := by
  unfold Reactor.register
  split
  · exact ⟨coherent, fun _ _ => by simp⟩
  · dsimp only
    generalize named : Connection.new r.ids.take.1 kind receiver wanted = c
    have numbered : ({ r with ids := r.ids.take.2 } : Reactor).Coherent loan :=
      ⟨coherent.sound, coherent.books, coherent.present, coherent.counted⟩
    have added : (({ r with ids := r.ids.take.2 } : Reactor).add c).Coherent loan := by
      rw [← named]
      exact coherent.addNew loose r.ids.take.2 r.ids.take.1 kind wanted
    have step := added.checkActivate r.ids.take.1 policy .activate
    split <;> rename_i eq
    · rw [eq] at step
      exact ⟨step, fun _ _ => by simp⟩
    · rename_i error r'
      obtain ⟨unchanged, valid⟩ := added.checkActivate_error (congrArg Prod.fst eq)
      rw [eq] at unchanged
      dsimp only at unchanged
      refine ⟨?_, fun d activity bad => ?_⟩
      · have kind : c.kind = kind := by rw [← named]; rfl
        dsimp only
        rw [unchanged, ← kind, withdraw_add]
        exact numbered.discard receiver loose
      · cases bad
        exact valid d activity rfl

theorem Coherent.assign (coherent : r.Coherent loan) {e : Endpoint} (loose : r.Loose loan e) (id : Nat) :
    (r.assign id e).2.Coherent loan ∧
      ∀ d activity, (r.assign id e).1 ≠ .error (.invalidStatus d activity) := by
  have refused : ({ r with host := r.host.close e } : Reactor).Coherent loan := by
    refine coherent.discard (.ofEndpoint e) ?_
    rintro _ ⟨⟩
    exact loose
  unfold Reactor.assign
  dsimp only
  split
  · exact ⟨refused, fun _ _ => by simp⟩
  · rename_i c found
    split
    · exact ⟨refused, fun _ _ => by simp⟩
    · rename_i idle
      split
      · exact ⟨refused, fun _ _ => by simp⟩
      · rename_i receiver held
        refine ⟨?_, fun _ _ => by simp⟩
        have inactive := (coherent.books.settled c (connection?_mem found)).inactive idle
        apply coherent.replace found (f := (·.hold (.ofEndpoint e))) (fun _ => rfl) (fun _ => rfl) (fun _ _ => rfl)
        · exact (receiver.drop_shrinks _).sound coherent.sound
        · intro l perm books
          have kept := books.tail_isOpen_drop
          rw [held] at kept
          refine (books.remove inactive kept).add inactive ⟨Or.inl inactive, ?_⟩ ?_
          · rintro _ ⟨⟩
            rfl
          · rintro _ ⟨⟩
            have apart : e ∉ (c :: l).filterMap endpoint? ++ Loan.endpoints loan := fun mem =>
              loose.2 (((perm.filterMap endpoint?).append_right _).mem_iff.2 mem)
            rw [filterMap_cons_toList, List.append_assoc, List.mem_append, not_or, Option.mem_toList,
              endpoint?_of_receiver held] at apart
            exact ⟨(receiver.drop_isOpen _ e).2 ⟨loose.1, apart.1⟩, apart.2⟩

theorem still_sendEach (bytes : Bytes) (targets : List Connection) (h : Host) :
    Host.Still h (sendEach bytes targets h).2 := by
  induction targets generalizing h with
  | nil => exact .refl h
  | cons c targets ih =>
      unfold sendEach
      split
      · exact ih h
      · rename_i receiver _
        have step := Host.Still.sendFrom receiver bytes h
        split <;> rename_i eq <;> rw [eq] at step <;> exact step.trans (ih _)

theorem sendEach_grows (bytes : Bytes) (targets : List Connection) (h : Host) :
    Host.Grows h (sendEach bytes targets h).2 :=
  (still_sendEach bytes targets h).grows

theorem Coherent.sendTo (coherent : r.Coherent loan) (kinds : KindSet) (bytes : Bytes) :
    (r.sendTo kinds bytes).2.Coherent loan :=
  (coherent.grow (sendEach_grows bytes _ _)).unregisterAll _

theorem Coherent.cleanup (coherent : r.Coherent loan) : r.cleanup.Coherent loan :=
  coherent.unregisterAll _

theorem Coherent.record (coherent : r.Coherent loan) (seen : List Flags) :
    ({ r with table := r.table.record seen } : Reactor).Coherent loan :=
  ⟨coherent.sound, ⟨coherent.books.tracks.record seen, coherent.books.settled, coherent.books.unique,
    coherent.books.isOpen⟩, coherent.present, coherent.counted⟩

theorem Coherent.clear (coherent : r.Coherent loan) : ({ r with table := r.table.clear } : Reactor).Coherent loan :=
  ⟨coherent.sound, ⟨coherent.books.tracks.clear, coherent.books.settled, coherent.books.unique,
    coherent.books.isOpen⟩, coherent.present, coherent.counted⟩

end Reactor

end TraceGate
