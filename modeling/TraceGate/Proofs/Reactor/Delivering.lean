import TraceGate.Proofs.Host.Lines
import TraceGate.Proofs.Reactor.Foremost
import TraceGate.Proofs.Reactor.Tidiness

namespace TraceGate

open Connection

namespace Host

variable {h : Host} {e : Endpoint} {n node place : Nat} {bytes taken : Bytes}

def Content.line? : Content → Option Nat
  | .stream n => some n
  | _ => none

def Content.file? : Content → Option (Nat × Nat)
  | .file node place => some (node, place)
  | _ => none

def stream? (h : Host) (e : Endpoint) : Option Nat := (h.content? e).bind Content.line?

def file? (h : Host) (e : Endpoint) : Option (Nat × Nat) := (h.content? e).bind Content.file?

def laid (file : Option (Nat × Nat)) (node : Nat) (taken old : Bytes) : Bytes :=
  match file with
  | none => old
  | some (own, place) => if own = node then old.take place ++ taken ++ old.drop (place + taken.length) else old

@[simp] theorem laid_nil (file : Option (Nat × Nat)) (node : Nat) (old : Bytes) : laid file node [] old = old := by
  rcases file with _ | ⟨own, place⟩ <;> simp [laid]

theorem storedBytes_setStored (h : Host) (node : Nat) (bytes : Bytes) (node' : Nat) :
    (h.setStored node bytes).storedBytes node' = if node' = node then bytes else h.storedBytes node' := by
  unfold storedBytes setStored
  rw [List.lookup_cons]
  by_cases same : node' = node
  · simp [same]
  · have differ : (node' == node) = false := by simpa using same
    rw [differ, if_neg same]
    dsimp only
    congr 1
    induction h.stored with
    | nil => rfl
    | cons p stored ih =>
        by_cases own : p.1 = node
        · rw [List.filter_cons_of_neg (by simp [own]), ih, List.lookup_cons, own, differ]
        · rw [List.filter_cons_of_pos (by simp [own]), List.lookup_cons, List.lookup_cons, ih]

structure Takes (h : Host) (e : Endpoint) (taken : Bytes) (h' : Host) : Prop where
  outbound : ∀ n, h'.outbound? n = (h.outbound? n).map (· ++ if h.stream? e = some n then taken else [])
  stored : ∀ node, h'.storedBytes node = laid (h.file? e) node taken (h.storedBytes node)
  stream : ∀ e', h'.stream? e' = h.stream? e'
  file : ∀ e', h'.file? e' = (h.file? e').map fun (node, place) => (node, place + if e = e' then taken.length else 0)

theorem Takes.none (h : Host) (e : Endpoint) (faults : List (Option Fault)) : Takes h e [] { h with faults } := by
  refine ⟨fun n => ?_, fun node => (laid_nil _ _ _).symm, fun _ => rfl, fun e' => ?_⟩
  · simp only [ite_self, List.append_nil, Option.map_id']
    rfl
  · simp only [List.length_nil, ite_self, Nat.add_zero, Prod.mk.eta, Option.map_id']
    rfl

theorem Takes.line (own : h.content? e = some (.stream n)) (faults : List (Option Fault)) {f : Line → Line}
    (grown : ∀ w, h.line? n = some w → (f w).outbound = w.outbound ++ taken) :
    Takes h e taken (({ h with faults } : Host).updateLine n f) := by
  have stream : h.stream? e = some n := by rw [stream?, own]; rfl
  have file : h.file? e = Option.none := by rw [file?, own]; rfl
  refine ⟨fun m => ?_, fun node => by rw [file]; rfl, fun _ => rfl, fun e' => ?_⟩
  · have line : (({ h with faults } : Host).updateLine n f).line? m = if m = n then (h.line? m).map f else h.line? m :=
      line?_updateLine _ n f m
    rw [outbound?, line, outbound?, stream]
    by_cases same : m = n
    · subst same
      cases found : h.line? m with
      | none => simp
      | some w => simp [grown w found]
    · simp [same, Ne.symm same, Function.comp_def]
  · by_cases same : e = e'
    · rw [← same, file]
      exact file
    · simp only [same, ite_false, Nat.add_zero, Prod.mk.eta, Option.map_id']
      rfl

theorem Takes.laid (own : h.content? e = some (.file node place)) (faults : List (Option Fault)) (taken : Bytes) :
    Takes h e taken (({ h with faults } : Host).storeAt e node place taken) := by
  have stream : h.stream? e = Option.none := by rw [stream?, own]; rfl
  have file : h.file? e = some (node, place) := by rw [file?, own]; rfl
  have content (e' : Endpoint) : (({ h with faults } : Host).storeAt e node place taken).content? e' =
      if e' = e then some (.file node (place + taken.length)) else h.content? e' := by
    refine (content?_setContent _ e _ e').trans ?_
    split
    · rename_i same
      rw [same]
      exact congrArg (Option.map _) own
    · rfl
  refine ⟨fun n => ?_, fun m => ?_, fun e' => ?_, fun e' => ?_⟩
  · simp only [stream, reduceCtorEq, ite_false, List.append_nil, Option.map_id']
    rfl
  · change (setStored _ node _).storedBytes m = _
    rw [storedBytes_setStored, file, Host.laid]
    by_cases same : m = node
    · rw [if_pos same, if_pos same.symm, same]
      rfl
    · rw [if_neg same, if_neg (Ne.symm same)]
      rfl
  · rw [stream?, content]
    split
    · rename_i same
      rw [same, stream]
      rfl
    · rfl
  · rw [file?, content]
    split
    · rename_i same
      rw [same, file, if_pos rfl]
      rfl
    · rename_i other
      simp only [Ne.symm other, ite_false, Nat.add_zero, Prod.mk.eta, Option.map_id']
      rfl

def portion (h : Host) (e : Endpoint) (bytes : Bytes) : Bytes :=
  let after := (h.write e bytes).2
  match h.content? e with
  | some (.stream n) => ((after.outbound? n).getD []).drop ((h.outbound? n).getD []).length
  | some (.file _ place) => bytes.take (((after.file? e).map (·.2)).getD place - place)
  | _ => []

structure Wrote (h : Host) (e : Endpoint) (bytes taken : Bytes) (outcome : Except SystemError Unit × Host) : Prop where
  took : bytes ≠ [] → Took bytes outcome.1 taken
  initial : taken <+: bytes
  takes : Takes h e taken outcome.2

theorem Wrote.nothing (h : Host) (e : Endpoint) (bytes : Bytes) (error : SystemError) (faults : List (Option Fault)) :
    Wrote h e bytes [] (.error error, { h with faults }) :=
  ⟨fun filled => Or.inr ⟨⟨error, rfl⟩, List.nil_prefix, List.length_pos_iff.2 filled⟩, List.nil_prefix, .none h e faults⟩

theorem Wrote.idle (empty : bytes.isEmpty = true) : Wrote h e bytes [] (.ok (), h) :=
  ⟨fun filled => absurd (List.isEmpty_iff.1 empty) filled, List.nil_prefix, .none h e h.faults⟩

theorem Wrote.all {h' : Host} (takes : Takes h e bytes h') : Wrote h e bytes bytes (.ok (), h') :=
  ⟨fun _ => Or.inl ⟨rfl, rfl⟩, List.prefix_rfl, takes⟩

theorem Wrote.partly {h' : Host} {count : Nat} (error : SystemError) (takes : Takes h e (part count bytes) h') :
    Wrote h e bytes (part count bytes) (.error error, h') :=
  ⟨fun filled => Or.inr ⟨⟨error, rfl⟩, part_prefix _ _, part_length_lt filled _⟩, part_prefix _ _, takes⟩

theorem write_wrote (h : Host) (e : Endpoint) (bytes : Bytes) :
    ∃ taken, Wrote h e bytes taken (h.write e bytes) ∧
      (taken = [] ∨ (∃ n w, h.content? e = some (.stream n) ∧ h.line? n = some w) ∨ ∃ node place, h.content? e = some (.file node place)) := by
  unfold write
  split
  · exact ⟨[], .nothing h e bytes _ h.faults, Or.inl rfl⟩
  · rename_i n own
    split
    · exact ⟨[], .idle ‹_›, Or.inl rfl⟩
    obtain ⟨faults, course | ⟨error, count, failed⟩⟩ := attempt_cases h (send · e n bytes) fun taken h => h.sendLine n (part taken bytes)
    · rw [course]
      unfold send
      split
      · exact ⟨[], .nothing h e bytes _ faults, Or.inl rfl⟩
      · rename_i w line
        split
        · dsimp only
          split <;> rw [sendLine_charge]
          · exact ⟨bytes, .all (.line own faults fun _ _ => rfl), Or.inr (Or.inl ⟨n, w, own, line⟩)⟩
          · exact ⟨_, .partly _ (.line own faults fun _ _ => rfl), Or.inr (Or.inl ⟨n, w, own, line⟩)⟩
        · exact ⟨[], .nothing h e bytes _ faults, Or.inl rfl⟩
    · rw [failed]
      cases line : h.line? n with
      | none =>
          have takes : Takes h e [] (({ h with faults } : Host).sendLine n (part count bytes)) :=
            .line own faults fun w known => by cases line.symm.trans known
          obtain ⟨took, initial, -⟩ := Wrote.nothing h e bytes error faults
          exact ⟨[], ⟨took, initial, takes⟩, Or.inl rfl⟩
      | some w => exact ⟨_, .partly error (.line own faults fun _ _ => rfl), Or.inr (Or.inl ⟨n, w, own, line⟩)⟩
  · rename_i node place own
    split
    · exact ⟨[], .idle ‹_›, Or.inl rfl⟩
    obtain ⟨faults, course | ⟨error, count, failed⟩⟩ := attempt_cases h (fun h => (.ok (), h.storeAt e node place bytes))
      fun taken h => h.storeAt e node place (part taken bytes)
    · rw [course]
      exact ⟨bytes, .all (.laid own faults bytes), Or.inr (Or.inr ⟨node, place, own⟩)⟩
    · rw [failed]
      exact ⟨_, .partly error (.laid own faults _), Or.inr (Or.inr ⟨node, place, own⟩)⟩
  · exact ⟨[], .nothing h e bytes _ h.faults, Or.inl rfl⟩

theorem write_takes (h : Host) (e : Endpoint) (bytes : Bytes) : Wrote h e bytes (h.portion e bytes) (h.write e bytes) := by
  obtain ⟨taken, wrote, seen⟩ := write_wrote h e bytes
  have initial := wrote.initial
  have takes := wrote.takes
  have same : h.portion e bytes = taken := by
    unfold Host.portion
    dsimp only
    split
    · rename_i n own
      have stream : h.stream? e = some n := by rw [stream?, own]; rfl
      rw [takes.outbound, stream, if_pos rfl]
      cases line : h.line? n with
      | some w => simp [outbound?, line]
      | none =>
          rcases seen with rfl | ⟨m, w, own', line'⟩ | ⟨node, place, own'⟩
          · simp [outbound?, line]
          · cases own.symm.trans own'
            cases line.symm.trans line'
          · cases own.symm.trans own'
    · rename_i node place own
      have file : h.file? e = some (node, place) := by rw [file?, own]; rfl
      rw [takes.file, file, if_pos rfl, Option.map_some, Option.map_some, Option.getD_some, Nat.add_sub_cancel_left]
      exact (List.prefix_iff_eq_take.1 initial).symm
    · rename_i stream file
      exact (seen.resolve_right (by
        rintro (⟨n, -, own, -⟩ | ⟨node, place, own⟩)
        · exact stream n own
        · exact file node place own)).symm
  rwa [same]

end Host

namespace Reactor

/-- A connection that is written to, and what comes of it. -/
structure Attempt where
  target : Connection
  result : Except SystemError Unit
  taken : Bytes

def attempts (bytes : Bytes) : List Connection → Host → List Attempt
  | [], _ => []
  | c :: l, h =>
    match c.endpoint? with
    | none => attempts bytes l h
    | some e => ⟨c, (h.write e bytes).1, h.portion e bytes⟩ :: attempts bytes l (h.write e bytes).2

/-- The attempts are what the host goes through, and nothing besides. -/
inductive Writes (bytes : Bytes) : Host → List Attempt → Host → Prop
  | none (h : Host) : Writes bytes h [] h
  | next {h h' : Host} {c : Connection} {e : Endpoint} {log : List Attempt} (own : c.endpoint? = some e)
      (rest : Writes bytes (h.write e bytes).2 log h') : Writes bytes h (⟨c, (h.write e bytes).1, h.portion e bytes⟩ :: log) h'

def refused (log : List Attempt) : List Connection := (log.filter fun a => !a.result.isOk).map (·.target)

def pieces (log : List Attempt) (e : Endpoint) : Bytes := log.flatMap fun a => if a.target.endpoint? = some e then a.taken else []

variable {bytes : Bytes} {log : List Attempt} {l : List Connection} {h h' : Host} {c : Connection} {e : Endpoint}

theorem sendEach_attempts (held : ∀ c ∈ l, c.endpoint?.isSome) (h : Host) :
    (sendEach bytes l h).1 = ((attempts bytes l h).countP (·.result.isOk), (refused (attempts bytes l h)).map (·.id)) ∧
      Writes bytes h (attempts bytes l h) (sendEach bytes l h).2 ∧ (attempts bytes l h).map (·.target) = l := by
  induction l generalizing h with
  | nil => exact ⟨rfl, .none h, rfl⟩
  | cons c l ih =>
      obtain ⟨own, held⟩ := List.forall_mem_cons.1 held
      obtain ⟨e, own⟩ := Option.isSome_iff_exists.1 own
      obtain ⟨receiver, has, endpoint⟩ := Option.bind_eq_some_iff.1 own
      obtain ⟨counts, writes, all⟩ := ih held (h.write e bytes).2
      have after := Writes.next own writes
      unfold attempts sendEach
      rw [own, has]
      dsimp only [Receiver.send]
      rw [endpoint]
      dsimp only
      rcases outcome : h.write e bytes with ⟨error | done, k⟩ <;> rw [outcome] at counts after all <;>
        obtain ⟨delivered, failed⟩ := Prod.ext_iff.1 counts <;> dsimp only at delivered failed after all ⊢ <;>
        rw [delivered, failed] <;>
        exact ⟨by simp [refused, Except.isOk, Except.toBool], after, congrArg (c :: ·) all⟩

theorem Writes.took (writes : Writes bytes h log h') (filled : bytes ≠ []) :
    ∀ a ∈ log, Host.Took bytes a.result a.taken := by
  induction writes with
  | none h => exact List.forall_mem_nil _
  | @next h h' c e log own rest ih => exact List.forall_mem_cons.2 ⟨(Host.write_takes h e bytes).took filled, ih⟩

theorem Writes.outbound? (writes : Writes bytes h log h') (n : Nat) : h'.outbound? n = (h.outbound? n).map
    (· ++ log.flatMap fun a => if a.target.endpoint?.bind h.stream? = some n then a.taken else []) := by
  induction writes with
  | none h => simp
  | @next h h' c e log own rest ih =>
      have takes := (Host.write_takes h e bytes).takes
      rw [ih, funext takes.stream, takes.outbound, Option.map_map, List.flatMap_cons, own]
      congr 1
      funext before
      simp [List.append_assoc]

theorem Writes.file? (writes : Writes bytes h log h') (e' : Endpoint) : h'.file? e' =
    (h.file? e').map fun (node, place) => (node, place + (pieces log e').length) := by
  induction writes with
  | none h => simp [pieces]
  | @next h h' c e log own rest ih =>
      have takes := (Host.write_takes h e bytes).takes
      rw [ih, takes.file, Option.map_map, pieces, pieces, List.flatMap_cons, own]
      congr 1
      funext place
      by_cases same : e = e' <;> simp [same, Nat.add_assoc]

theorem Writes.storedBytes (writes : Writes bytes h log h') (distinct : (log.filterMap (·.target.endpoint?)).Nodup) (node : Nat) :
    h'.storedBytes node =
      log.foldl (fun old a => Host.laid (a.target.endpoint?.bind h.file?) node a.taken old) (h.storedBytes node) := by
  induction writes with
  | none h => rfl
  | @next h h' c e log own rest ih =>
      have takes := (Host.write_takes h e bytes).takes
      simp only [List.filterMap_cons, own] at distinct
      obtain ⟨apart, distinct⟩ := List.nodup_cons.1 distinct
      rw [ih distinct, takes.stored, List.foldl_cons, own]
      refine List.foldl_ext _ _ _ fun old a mem => ?_
      -- Nobody else writes to the endpoint, so that the others stand where they did.
      have still : a.target.endpoint?.bind (h.write e bytes).2.file? = a.target.endpoint?.bind h.file? := by
        cases own' : a.target.endpoint? with
        | none => rfl
        | some e' =>
            have other : e ≠ e' := fun same => apart (List.mem_filterMap.2 ⟨a, mem, same ▸ own'⟩)
            simp [takes.file, other]
      rw [still]

variable {loan : Option Loan} {r : Reactor} {d : Connection} {kinds : KindSet}

def slotsBeside (gone : List Connection) (slots : List Slot) : List Slot :=
  slots.filter fun s => ∀ c ∈ gone, c.fd.map Int.ofNat ≠ some s.fd

theorem Coherent.unregister_active (coherent : r.Coherent loan) (foremost : r.Foremost) (mem : c ∈ r.connections)
    (active : c.IsActive) (held : c.endpoint?.isSome) :
    (r.unregister c.id).2.connections = r.connections.filter (· ≠ c) ∧
      (r.unregister c.id).2.table.occupied = slotsBeside [c] r.table.occupied := by
  have found := foremost.found mem active
  constructor
  · obtain ⟨-, before, after, split, ahead⟩ := connection?_split found
    obtain ⟨e, own⟩ := Option.isSome_iff_exists.1 held
    -- The connection stands in the list once, because its endpoint does.
    have unique := (List.nodup_append.1 coherent.books.unique).1
    rw [split, List.filterMap_append, List.filterMap_cons_some own] at unique
    have later : c ∉ after := fun again =>
      (List.nodup_cons.1 (List.nodup_append.1 unique).2.1).1 (List.mem_filterMap.2 ⟨c, again, own⟩)
    have earlier : c ∉ before := fun again => ahead c again (by simp)
    rw [(coherent.unregister_connections c.id).1, split, List.eraseP_append_right _ (by simpa using ahead)]
    simp only [beq_self_eq_true, List.eraseP_cons_of_pos, List.filter_append, ne_eq, not_true_eq_false, decide_false,
      Bool.false_eq_true, not_false_eq_true, List.filter_cons_of_neg]
    have keeps {l : List Connection} (absent : c ∉ l) : l.filter (fun d => decide ¬d = c) = l :=
      List.filter_eq_self.2 fun d mem => decide_eq_true fun same => absent (same ▸ mem)
    rw [keeps earlier, keeps later]
  · obtain ⟨fd, known⟩ := coherent.known found active
    have table : (r.unregister c.id).2.table = (r.table.disable fd).2 := by
      rcases coherent.checkActivate_cases found ∅ .deactivate with ⟨idle, -⟩ | ⟨-, eq⟩ | ⟨⟨-, -, bad⟩, -⟩
      · exact absurd (idle.1 active).2 (by decide)
      · unfold Reactor.unregister
        rw [eq]
        dsimp only
        rw [deactivate_connection? found]
        change (r.deactivate c).table = _
        unfold Reactor.deactivate unwatchOf
        rw [known]
        dsimp only
        split <;> rfl
      · cases bad
    have tracks := coherent.books.tracks
    rw [table, Table.occupied_disable tracks.fits, eraseP_eq_filter tracks.occupied_nodup, slotsBeside]
    simp [known, eq_comm]

theorem Coherent.unregister_each (coherent : r.Coherent loan) (foremost : r.Foremost) {gone : List Connection}
    (among : ∀ c ∈ gone, c ∈ r.connections ∧ c.IsActive ∧ c.endpoint?.isSome) (distinct : gone.Nodup) :
    (r.unregisterAll (gone.map (·.id))).connections = r.connections.filter (· ∉ gone) ∧
      (r.unregisterAll (gone.map (·.id))).table.occupied = slotsBeside gone r.table.occupied := by
  induction gone generalizing r with
  | nil => simp [Reactor.unregisterAll, slotsBeside]
  | cons c gone ih =>
      obtain ⟨apart, distinct⟩ := List.nodup_cons.1 distinct
      obtain ⟨⟨mem, active, held⟩, among⟩ := List.forall_mem_cons.1 among
      obtain ⟨connections, table⟩ := coherent.unregister_active foremost mem active held
      obtain ⟨connections', table'⟩ := ih (coherent.unregister c.id).1 (coherent.unregister_foremost foremost c.id)
        (fun d mem' => ⟨by
          rw [connections]
          exact List.mem_filter.2 ⟨(among d mem').1, decide_eq_true fun same => apart (same ▸ mem')⟩, (among d mem').2⟩)
        distinct
      rw [List.map_cons, Reactor.unregisterAll, connections', table', connections, table]
      constructor
      · rw [List.filter_filter]
        simp [Bool.and_comm]
      · rw [slotsBeside, slotsBeside, slotsBeside, List.filter_filter]
        simp [Bool.and_comm]

theorem eq_of_filterMap {α β : Type} {f : α → Option β} {l : List α} (distinct : (l.filterMap f).Nodup) {a a' : α} {b : β}
    (mem : a ∈ l) (mem' : a' ∈ l) (image : f a = some b) (image' : f a' = some b) : a = a' := by
  have : Std.Symm fun a a' => ∀ b, f a = some b → ∀ b', f a' = some b' → b ≠ b' :=
    ⟨fun _ _ ne b image b' image' => (ne b' image' b image).symm⟩
  by_contra other
  exact (List.pairwise_filterMap.1 distinct).forall mem mem' other b image b image' rfl

theorem Coherent.isOpen_iff (coherent : r.Coherent loan) (e : Endpoint) :
    r.host.IsOpen e ↔ r.Loose loan e ∨ e ∈ r.connections.filterMap endpoint? ++ Loan.endpoints loan := by
  refine ⟨fun isOpen => ?_, fun known => known.elim And.left (coherent.books.isOpen e)⟩
  by_cases held : e ∈ r.connections.filterMap endpoint? ++ Loan.endpoints loan
  · exact Or.inr held
  · exact Or.inl ⟨isOpen, held⟩

theorem Coherent.spares (coherent : r.Coherent loan) {gone : List Connection} (within : ∀ c ∈ gone, c ∈ r.connections)
    (e : Endpoint) :
    (r.Loose loan e ∨ e ∈ (r.connections.filter (· ∉ gone)).filterMap endpoint? ++ Loan.endpoints loan) ↔
      (r.Loose loan e ∨ e ∈ r.connections.filterMap endpoint? ++ Loan.endpoints loan) ∧
        ∀ c ∈ gone, c.endpoint? ≠ some e := by
  obtain ⟨unique, -, apart⟩ := List.nodup_append.1 coherent.books.unique
  have held {c : Connection} (mem : c ∈ gone) (own : c.endpoint? = some e) : e ∈ r.connections.filterMap endpoint? :=
    List.mem_filterMap.2 ⟨c, within c mem, own⟩
  constructor
  · rintro (loose | known)
    · exact ⟨Or.inl loose, fun c mem own => loose.2 (List.mem_append_left _ (held mem own))⟩
    · rcases List.mem_append.1 known with kept | lent
      · obtain ⟨d, kept, own⟩ := List.mem_filterMap.1 kept
        obtain ⟨mem, stays⟩ := List.mem_filter.1 kept
        refine ⟨Or.inr (List.mem_append_left _ (List.mem_filterMap.2 ⟨d, mem, own⟩)), fun c leaves own' => ?_⟩
        have same : d = c := eq_of_filterMap unique mem (within c leaves) own own'
        exact of_decide_eq_true stays (same ▸ leaves)
      · exact ⟨Or.inr (List.mem_append_right _ lent), fun c leaves own => apart e (held leaves own) e lent rfl⟩
  · rintro ⟨loose | known, spared⟩
    · exact Or.inl loose
    · rcases List.mem_append.1 known with mine | lent
      · obtain ⟨d, mem, own⟩ := List.mem_filterMap.1 mine
        have stays : d ∈ r.connections.filter (· ∉ gone) :=
          List.mem_filter.2 ⟨mem, decide_eq_true fun leaves => spared d leaves own⟩
        exact Or.inr (List.mem_append_left _ (List.mem_filterMap.2 ⟨d, stays, own⟩))
      · exact Or.inr (List.mem_append_right _ lent)

theorem Coherent.targets_held (coherent : r.Coherent loan)
    (other : ∀ l, loan = some l → ∀ d, r.connection? l.id = some d → d.kind ∉ kinds) :
    ∀ c ∈ r.targets kinds, c.endpoint?.isSome := by
  intro c mem
  obtain ⟨mem, active, kind⟩ : c ∈ r.connections ∧ c.IsActive ∧ c.kind ∈ kinds := by simpa [targets] using mem
  have keeps : c ∈ Loan.keepers loan r.connections := by
    cases loan with
    | none => exact mem
    | some l =>
        cases found : r.connection? l.id with
        | none => rwa [Loan.keepers, List.eraseP_of_forall_not (List.find?_eq_none.1 found)]
        | some d =>
            obtain ⟨-, before, after, split, ahead⟩ := connection?_split found
            rw [Loan.keepers, split, List.eraseP_append_right _ (by simpa using ahead)]
            have own := (connection?_split found).1
            rw [split] at mem
            simp only [List.mem_append, List.mem_cons] at mem ⊢
            rcases mem with early | rfl | late
            · exact Or.inl early
            · exact absurd kind (other l rfl c found)
            · simp [own, late]
  obtain ⟨receiver, held⟩ := Option.isSome_iff_exists.1 (coherent.present c keeps)
  have settled := coherent.books.settled c mem
  have known := (settled.activity.resolve_left (by rw [active]; decide)).2
  rw [settled.fd receiver held, Receiver.fd?, Option.isSome_map] at known
  rwa [endpoint?_of_receiver held]

/-- Bytes are sent to the targets, each once; those that do not take them as a whole go, and nobody else. -/
structure Sends (bytes : Bytes) (kinds : KindSet) (loan : Option Loan) (r : Reactor) (log : List Attempt)
    (outcome : Nat × Reactor) : Prop where
  writes : ∃ host, Writes bytes r.host log host ∧ Host.Shrinks host outcome.2.host ∧ host.Sound
  targets : log.map (·.target) = r.targets kinds
  distinct : (log.filterMap (·.target.endpoint?)).Nodup
  delivered : outcome.1 = log.countP (·.result.isOk)
  connections : outcome.2.connections = r.connections.filter (· ∉ refused log)
  table : outcome.2.table.occupied = slotsBeside (refused log) r.table.occupied
  ids : outcome.2.ids = r.ids
  isOpen : ∀ e, outcome.2.host.IsOpen e ↔ r.host.IsOpen e ∧ ∀ c ∈ refused log, c.endpoint? ≠ some e

theorem refused_sublist (log : List Attempt) : (refused log).Sublist (log.map (·.target)) := List.filter_sublist.map _

theorem Coherent.sends (coherent : r.Coherent loan) (foremost : r.Foremost) (bytes : Bytes)
    (other : ∀ l, loan = some l → ∀ d, r.connection? l.id = some d → d.kind ∉ kinds) :
    Sends bytes kinds loan r (attempts bytes (r.targets kinds) r.host) (r.sendTo kinds bytes) := by
  have held := coherent.targets_held other
  obtain ⟨counts, writes, all⟩ := @sendEach_attempts bytes (r.targets kinds) held r.host
  generalize attempts bytes (r.targets kinds) r.host = log at counts writes all ⊢
  have delivered := congrArg Prod.fst counts
  have failed : (sendEach bytes (r.targets kinds) r.host).1.2 = (refused log).map (·.id) := congrArg Prod.snd counts
  have unique := (List.nodup_append.1 coherent.books.unique).1
  have within : ∀ c ∈ refused log, c ∈ r.connections ∧ c.IsActive ∧ c.endpoint?.isSome := fun c mem => by
    have target := all ▸ (refused_sublist log).subset mem
    obtain ⟨mem, active, -⟩ : c ∈ r.connections ∧ c.IsActive ∧ c.kind ∈ kinds := by simpa [Reactor.targets] using target
    exact ⟨mem, active, held c target⟩
  have distinct : (refused log).Nodup := by
    have sublist : (refused log).Sublist r.connections := (all ▸ refused_sublist log).trans List.filter_sublist
    refine ((List.pairwise_filterMap.1 unique).sublist sublist).imp_of_mem fun {c d} mem _ apart same => ?_
    obtain ⟨e, own⟩ := Option.isSome_iff_exists.1 (within c mem).2.2
    exact apart e own e (same ▸ own) rfl
  have written := coherent.grow (sendEach_grows bytes (r.targets kinds) r.host)
  obtain ⟨connections, table⟩ := written.unregister_each foremost within distinct
  rw [← failed] at connections table
  refine ⟨⟨_, writes, unregisterAll_shrinks { r with host := (sendEach bytes (r.targets kinds) r.host).2 } _, written.sound⟩, all, ?_, delivered, connections, table,
    coherent.sendTo_ids kinds bytes, fun e => ?_⟩
  · have targets : log.filterMap (·.target.endpoint?) = (r.targets kinds).filterMap endpoint? := by
      rw [← all, List.filterMap_map]
      rfl
    rw [targets]
    exact (List.filter_sublist.filterMap _).nodup unique
  · rw [(coherent.sendTo kinds bytes).isOpen_iff, coherent.isOpen_iff, (tidy_sendTo r kinds bytes).loose,
      show (r.sendTo kinds bytes).2.connections = _ from connections]
    exact coherent.spares (fun c mem => (within c mem).1) e

end Reactor

end TraceGate
