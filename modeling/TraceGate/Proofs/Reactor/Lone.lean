import TraceGate.Proofs.Reactor.Lending
import TraceGate.Proofs.Reactor.Reachable
import TraceGate.Proofs.Reactor.Sparing

namespace TraceGate

open Connection

/-- The wait sees the flags on one descriptor, if it is watched, and nothing on any other. -/
def Wait.SeesOnly (wait : Wait) (fd : Int) (flags : Flags) (r : Reactor) : Prop :=
  wait r.host r.table.occupied = .ok (.ofFlags (r.table.occupied.map fun s => if s.fd = fd then flags else 0))

theorem Round.wait_seesOnly (fd : Int) (flags : Flags) (r : Reactor) :
    Wait.SeesOnly (Round.wait [(fd, flags)]) fd flags r := by
  unfold Wait.SeesOnly Round.wait
  congr 3
  funext s
  by_cases own : s.fd = fd
  · simp [Round.flagsOf, own]
  · simp [Round.flagsOf, own, Ne.symm own]

namespace Table

variable {t : Table}

theorem occupied_record (fits : t.used ≤ t.slots.length) (f : Slot → Flags) :
    (t.record (t.occupied.map f)).occupied = t.occupied.map fun s => { s with seen := f s } := by
  have length := occupied_length fits
  have zipped : t.occupied.zipWith (fun (s : Slot) f => { s with seen := f })
      (t.occupied.map f ++ List.replicate t.used 0) = t.occupied.map fun s => { s with seen := f s } := by
    apply List.ext_getElem
    · rw [List.length_zipWith, List.length_append, List.length_map, List.length_map]
      omega
    · intro i small _
      have inside : i < t.occupied.length := by
        rw [List.length_zipWith] at small
        omega
      simp [inside]
  unfold Table.record
  rw [zipped]
  exact (occupied_replaced (by rw [List.length_map, length])).1

theorem ready_record (fits : t.used ≤ t.slots.length) (f : Slot → Flags) :
    (t.record (t.occupied.map f)).ready = (t.occupied.filter fun s => f s != 0).map fun s => (s.fd, f s) := by
  rw [ready, occupied_record fits, List.filter_map, List.map_map]
  rfl

theorem ready_ofFlags (t : Table) (f : Slot → Flags) : (Answer.ofFlags (t.occupied.map f)).ready =
    ((t.occupied.filter fun s => f s != 0).map fun s => (s.fd, f s)).length := by
  rw [Answer.ofFlags, List.filter_map, List.length_map, List.length_map]
  rfl

theorem filter_seesOnly {l : List Slot} (distinct : (l.map (·.fd)).Nodup) (fd : Int) (flags : Flags) :
    ((l.filter fun s => (if s.fd = fd then flags else 0) != 0).map fun s => (s.fd, if s.fd = fd then flags else 0)) =
      if flags ≠ 0 ∧ fd ∈ l.map (·.fd) then [(fd, flags)] else [] := by
  rcases eq_or_ne flags 0 with rfl | filled
  · simp only [ite_self, bne_self_eq_false, List.filter_false, List.map_nil, ne_eq, not_true_eq_false, false_and,
      if_false]
  · induction l with
    | nil => simp
    | cons s l ih =>
        rw [List.map_cons, List.nodup_cons] at distinct
        have rest := ih distinct.2
        by_cases own : s.fd = fd
        · subst own
          rw [if_neg fun found => distinct.1 found.2] at rest
          rw [List.filter_cons_of_pos (by simpa using filled), List.map_cons, rest, if_pos rfl,
            if_pos ⟨filled, List.mem_cons_self⟩]
        · rw [List.filter_cons_of_neg (by rw [if_neg own, bne_self_eq_false]; exact Bool.false_ne_true), rest]
          simp only [List.map_cons, List.mem_cons, Ne.symm own, false_or]

end Table

namespace Reactor

variable {σ : Type} {wait : Wait} {r : Reactor} {c : Connection} {e : Endpoint}
  {receiver : Receiver} {fd : Int} {flags : Flags} {id : Nat}

theorem Coherent.round_seesOnly (coherent : r.Coherent none) (handlers : Kind → Handler σ)
    (sees : wait.SeesOnly fd flags r) (state : σ) :
    ((flags = 0 ∨ fd ∉ r.table.occupied.map (·.fd)) ∧ ∃ table : Table, table.plain = r.table.plain ∧
      r.round wait handlers state = (.ok 0, { r with table }, state)) ∨
    (flags ≠ 0 ∧ fd ∈ r.table.occupied.map (·.fd)) ∧ ∃ table : Table, table.plain = r.table.plain ∧
      ({ r with table } : Reactor).Coherent none ∧ r.round wait handlers state =
        ({ r with table } : Reactor).dispatch handlers [⟨fd, flags, r.findDescriptor? fd⟩] 0 state := by
  have tracks := coherent.books.tracks
  have only := Table.filter_seesOnly tracks.occupied_nodup fd flags
  have ready := Table.ready_record tracks.fits fun s => if s.fd = fd then flags else 0
  have number := Table.ready_ofFlags r.table fun s => if s.fd = fd then flags else 0
  rw [only] at ready number
  unfold Reactor.round
  rw [sees]
  dsimp only
  rw [number]
  generalize awake : r.table.occupied.map (fun s => if s.fd = fd then flags else 0) = seen at ready
  by_cases present : flags ≠ 0 ∧ fd ∈ r.table.occupied.map (·.fd)
  · rw [if_pos present] at ready ⊢
    refine Or.inr ⟨present, (r.table.record seen).clear, ?_, coherent.awoken seen, ?_⟩
    · rw [Table.plain_clear, Table.plain_record]
    · rw [if_neg (by simp), Reactor.sightings, Answer.ofFlags, ready]
      rfl
  · rw [if_neg present]
    refine Or.inl ⟨?_, r.table.record seen, Table.plain_record _ _, rfl⟩
    by_cases filled : flags = 0
    · exact Or.inl filled
    · exact Or.inr fun mem => present ⟨filled, mem⟩

theorem Coherent.eq_of_fd (coherent : r.Coherent none) {d : Connection} (mem : c ∈ r.connections)
    (held : c.endpoint? = some e) (mem' : d ∈ r.connections) (own : d.fd = some e.fd) : d = c := by
  have books := coherent.books
  obtain ⟨receiver, held'⟩ := Option.isSome_iff_exists.1 (coherent.present d mem')
  have known := (books.settled d mem').fd receiver held'
  rw [own] at known
  obtain ⟨e', holds, same⟩ := Option.map_eq_some_iff.1 known.symm
  rw [← endpoint?_of_receiver held'] at holds
  have isOpen {b : Connection} {e : Endpoint} (mem : b ∈ r.connections) (held : b.endpoint? = some e) :
      r.host.IsOpen e :=
    books.isOpen e (List.mem_append_left _ (List.mem_filterMap.2 ⟨b, mem, held⟩))
  obtain rfl : e' = e := coherent.sound.eq_of_fd (isOpen mem' holds) (isOpen mem held) same
  exact eq_of_filterMap_nodup (List.nodup_append.1 books.unique).1 mem' mem holds held

theorem Coherent.findDescriptor?_eq (coherent : r.Coherent none) (mem : c ∈ r.connections)
    (held : c.endpoint? = some e) (own : c.fd = some e.fd) : r.findDescriptor? e.fd = some c.id := by
  unfold Reactor.findDescriptor?
  cases found : r.connections.find? fun d => d.fd.any fun (n : Nat) => (n : Int) == e.fd with
  | none =>
      have absent := List.find?_eq_none.1 found c mem
      simp [own] at absent
  | some d =>
      have hit : d.fd = some e.fd := by
        have hit := List.find?_some found
        obtain ⟨n, known, same⟩ := (Option.any_eq_true _ _).1 hit
        rw [known]
        exact congrArg some (Int.ofNat.inj (by simpa using same))
      obtain rfl := coherent.eq_of_fd mem held (List.mem_of_find?_eq_some found) hit
      rfl

theorem Coherent.mem_occupied (coherent : r.Coherent none) (mem : c ∈ r.connections) (active : c.IsActive) {n : Nat}
    (own : c.fd = some n) : (n : Int) ∈ r.table.occupied.map (·.fd) := by
  have watched : ((n : Int), c.wanted) ∈ r.table.occupied.map Slot.watch :=
    coherent.books.tracks.same.mem_iff.2 (List.mem_filterMap.2 ⟨c, mem, watch?_of_active active own⟩)
  obtain ⟨slot, mem, same⟩ := List.mem_map.1 watched
  exact List.mem_map.2 ⟨slot, mem, congrArg Prod.fst same⟩

theorem Coherent.round_of_held (coherent : r.Coherent none) (handlers : Kind → Handler σ)
    (found : r.connection? c.id = some c) (active : c.IsActive) (held : c.receiver = some receiver)
    (holds : receiver.endpoint = some e) (sees : wait.SeesOnly e.fd flags r)
    (fine : Flags.meets flags (Flags.failed ||| Flags.notOpen) = false) (state : σ) :
    ∃ table : Table, table.plain = r.table.plain ∧
      (flags = 0 ∧ r.round wait handlers state = (.ok 0, { r with table }, state) ∨
        flags ≠ 0 ∧ ({ r with table } : Reactor).Coherent none ∧ ∀ scene : Scene σ,
          (handlers c.kind c.id).run.run (({ r with table } : Reactor).opening c.id receiver state) = (.ok (), scene) →
            r.round wait handlers state = (.ok 1, scene.reactor.restore c.id scene.receiver, scene.state)) := by
  have mem := connection?_mem found
  have own : c.fd = some e.fd := by
    rw [(coherent.books.settled c mem).fd receiver held, Receiver.fd?, holds]
    rfl
  rcases coherent.round_seesOnly handlers sees state with
    ⟨nothing, table, plain, round⟩ | ⟨⟨filled, -⟩, table, plain, awake, round⟩
  · have none : flags = 0 := nothing.resolve_right fun absent => absent (coherent.mem_occupied mem active own)
    exact ⟨table, plain, Or.inl ⟨none, round⟩⟩
  · refine ⟨table, plain, Or.inr ⟨filled, awake, fun scene run => ?_⟩⟩
    have owner := coherent.findDescriptor?_eq mem (by rw [endpoint?_of_receiver held, holds]) own
    have target : Sighting.target? ⟨e.fd, flags, some c.id⟩ ({ r with table } : Reactor) = some c := by
      have found : ({ r with table } : Reactor).connection? c.id = some c := found
      rw [Sighting.target?, Option.bind_some, found]
      simpa [own] using active
    have called : ({ r with table } : Reactor).runHandler (handlers c.kind) c.id receiver state =
        (.ok (), scene.reactor.restore c.id scene.receiver, scene.state) := by
      unfold Reactor.opening at run
      unfold Reactor.runHandler
      dsimp only
      rw [run]
    rw [round, owner]
    unfold Reactor.dispatch Reactor.attend
    dsimp only
    rw [target]
    dsimp only
    rw [fine, held]
    dsimp only [Bool.false_eq_true, if_false]
    rw [called]
    rfl

theorem Coherent.round_of_absent (coherent : r.Coherent none) (handlers : Kind → Handler σ)
    (absent : ∀ e, r.host.IsOpen e → (e.fd : Int) ≠ fd) (sees : wait.SeesOnly fd flags r) (state : σ) :
    ∃ table : Table, table.plain = r.table.plain ∧ r.round wait handlers state = (.ok 0, { r with table }, state) := by
  rcases coherent.round_seesOnly handlers sees state with ⟨-, nothing⟩ | ⟨⟨-, watched⟩, -⟩
  · exact nothing
  · obtain ⟨slot, mem, own⟩ := List.mem_map.1 watched
    obtain ⟨e, isOpen, same⟩ := coherent.consistent.polled slot mem
    exact absurd (same.symm.trans own) (absent e isOpen)

theorem update_congr {f g : Connection → Connection} (found : r.connection? id = some c) (same : f c = g c) :
    r.update id f = r.update id g := by
  obtain ⟨rfl, before, after, split, ahead⟩ := connection?_split found
  have lists : updateFirst (·.id == c.id) f r.connections = updateFirst (·.id == c.id) g r.connections := by
    rw [split, updateFirst_append (by simp) ahead, updateFirst_append (by simp) ahead, same]
  exact congrArg (fun connections => ({ r with connections } : Reactor)) lists

theorem update_eq_self {f : Connection → Connection} (found : r.connection? id = some c) (same : f c = c) :
    r.update id f = r := by
  obtain ⟨rfl, before, after, split, ahead⟩ := connection?_split found
  have lists : updateFirst (·.id == c.id) f r.connections = r.connections := by
    rw [split, updateFirst_append (by simp) ahead, same]
  exact congrArg (fun connections => ({ r with connections } : Reactor)) lists

theorem bare_with_table {table : Table} (plain : table.plain = r.table.plain) (n id : Nat) :
    ({ r with table } : Reactor).bare n id = r.bare n id := by
  unfold bare
  simp only [update, plain]

theorem bare_update {f : Connection → Connection} (found : r.connection? id = some c) (key : ∀ d, (f d).id = d.id)
    (same : (f c).lend = c.lend) (n : Nat) : (r.update id f).bare n id = r.bare n id := by
  have found : ({ r with host := r.host.blank n, table := r.table.plain } : Reactor).connection? id = some c := found
  have lent : (Connection.lend ∘ f) c = c.lend := same
  exact (update_update key).trans (update_congr found lent)

theorem Attached.change {n : Nat} {w : Host.Wire} (attached : r.Attached c e n w) {f : Connection → Connection}
    (key : ∀ d, (f d).id = d.id) : (r.update c.id f).Attached (f c) e n w where
  found := by
    rw [key]
    exact update_connection? key attached.found
  unshared d mem apart := by
    rw [key] at apart
    rcases mem_updateFirst mem with old | ⟨b, -, own, rfl⟩
    · exact attached.unshared d old apart
    · rw [key] at apart
      exact absurd (by simpa using own) apart
  carries := attached.carries

theorem hold_bare (r : Reactor) (n id : Nat) (receiver : Receiver) :
    ((r.bare n id).update id (·.hold receiver)).connections = (r.update id (·.hold receiver)).connections := by
  have twice := @update_update { r with host := r.host.blank n, table := r.table.plain } id Connection.lend
    (·.hold receiver) fun _ => rfl
  exact (congrArg Reactor.connections twice :)

theorem restore_of_lent (found : r.connection? id = some c) (lent : c.receiver = none) (own : c.fd = receiver.fd?) :
    r.restore id receiver = r.update id (·.hold receiver) := by
  unfold Reactor.restore discardHeld
  rw [found]
  dsimp only
  rw [if_neg fun moved => moved.2 own, lent]
  rfl

theorem remove_of_lent (lent : c.receiver = none) (r : Reactor) :
    ∃ counts, r.remove c = { r with counts, connections := r.connections.eraseP (·.id == c.id) } := by
  unfold Reactor.remove discardHeld
  rw [lent]
  exact ⟨_, rfl⟩

theorem unregister_of_lent (found : r.connection? c.id = some c) (active : c.IsActive) (other : c.kind ≠ .clientConnect)
    (lent : c.receiver = none) : ∃ table counts, r.unregister c.id =
      (.ok (), { r with table, counts, connections := r.connections.eraseP (·.id == c.id) }) := by
  have active : c.activity = .active := active
  have paused : ((r.unwatchOf c).update c.id Connection.pause).connection? c.id = some c.pause := by
    refine update_connection? (r := r.unwatchOf c) (fun _ => rfl) ?_
    unfold unwatchOf
    split <;> exact found
  have erased : (updateFirst (·.id == c.id) Connection.pause r.connections).eraseP (·.id == c.id) =
      r.connections.eraseP (·.id == c.id) := eraseP_updateFirst (f := Connection.pause) (fun _ => rfl) _
  have step : r.checkActivate c.id ∅ .deactivate = (.ok (), (r.unwatchOf c).update c.id Connection.pause) := by
    unfold Reactor.checkActivate Reactor.deactivate
    simp [found, active, other]
  obtain ⟨table, watched⟩ : ∃ table, r.unwatchOf c = { r with table } := by
    unfold unwatchOf
    split <;> exact ⟨_, rfl⟩
  obtain ⟨counts, removed⟩ := remove_of_lent (c := c.pause) lent ((r.unwatchOf c).update c.id Connection.pause)
  unfold Reactor.unregister
  rw [step]
  dsimp only
  rw [paused]
  dsimp only
  rw [removed, watched]
  exact ⟨table, counts, congrArg (fun connections => (Except.ok (), ({ r with table, counts, connections } : Reactor)))
    erased⟩

end Reactor

end TraceGate
