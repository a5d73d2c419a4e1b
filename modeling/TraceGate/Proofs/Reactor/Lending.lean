import TraceGate.Proofs.Reactor.Coherence

namespace TraceGate

open Connection

namespace Reactor

variable {r : Reactor} {c : Connection} {id : Nat} {loan : Option Loan}

theorem Coherent.lend (coherent : r.Coherent none) (found : r.connection? id = some c) {receiver : Receiver}
    (held : c.receiver = some receiver) :
    (r.update id Connection.lend).Coherent (some ⟨id, receiver.endpoint⟩) where
  sound := coherent.sound
  books := by
    have lent : c.endpoint?.toList = Loan.endpoints (some ⟨id, receiver.endpoint⟩) := by
      rw [endpoint?_of_receiver held]
      rfl
    refine Books.replace found coherent.books fun l _ books => ?_
    rw [← lent]
    exact Books.lend books
  present := by
    obtain ⟨rfl, before, after, split, ahead⟩ := connection?_split found
    intro d mem
    rw [Loan.keepers, Reactor.update, split, updateFirst_append (by simp) ahead,
      List.eraseP_append_right _ (by simpa using ahead), List.eraseP_cons_of_pos (by simp [Connection.lend])] at mem
    refine coherent.present d ?_
    rw [Loan.keepers, split]
    rcases List.mem_append.1 mem with mem | mem
    · exact List.mem_append_left _ mem
    · exact List.mem_append_right _ (List.mem_cons_of_mem _ mem)
  counted k := by
    have kinds := map_updateFirst (p := fun d => d.id == id) (l := r.connections) (f := Connection.lend) (·.kind)
      fun _ => rfl
    exact (coherent.counted k).trans (congrArg (List.count k) kinds.symm)

theorem update_update {f g : Connection → Connection} (same : ∀ d, (f d).id = d.id) :
    (r.update id f).update id g = r.update id (g ∘ f) := by
  have lists : ∀ l : List Connection, updateFirst (·.id == id) g (updateFirst (·.id == id) f l) =
      updateFirst (·.id == id) (g ∘ f) l := by
    intro l
    induction l with
    | nil => rfl
    | cons c l ih =>
        by_cases head : (c.id == id) = true
        · simp only [updateFirst, if_pos head, same, Function.comp]
        · simp only [updateFirst, if_neg head, ih]
  exact congrArg (fun connections => ({ r with connections } : Reactor)) (lists r.connections)

theorem Coherent.hold {receiver : Receiver} {f : Connection → Connection} {table : Table}
    (coherent : r.Coherent (some ⟨id, receiver.endpoint⟩)) (found : r.connection? id = some c)
    (kind : ∀ d, (f d).kind = d.kind) (held : (f c).receiver = some receiver) (settled : (f c).Settled)
    (tracks : ∀ l : List Connection, r.table.Tracks (c.watch?.toList ++ l.filterMap watch?) →
      table.Tracks ((f c).watch?.toList ++ l.filterMap watch?)) :
    ({ r with table, host := (c.receiver.getD .released).drop r.host }.update id f).Coherent none where
  sound := (Receiver.drop_shrinks _ _).sound coherent.sound
  books := by
    refine Books.replace (r := r) found coherent.books fun l _ books => ?_
    refine books.hold (tracks l (Books.cons_iff.1 books).1) settled ?_ books.tail_isOpen_drop
    rw [endpoint?_of_receiver held]
    rfl
  present := by
    obtain ⟨rfl, before, after, split, ahead⟩ := connection?_split found
    have others : ∀ d ∈ before ++ after, d.receiver.isSome := by
      have present := coherent.present
      rwa [Loan.keepers, split, List.eraseP_append_right _ (by simpa using ahead),
        List.eraseP_cons_of_pos (by simp)] at present
    intro d mem
    rw [Loan.keepers, Reactor.update, split, updateFirst_append (by simp) ahead, List.mem_append, List.mem_cons] at mem
    rcases mem with mem | rfl | mem
    · exact others d (List.mem_append_left _ mem)
    · rw [held]
      rfl
    · exact others d (List.mem_append_right _ mem)
  counted k := by
    have kinds := map_updateFirst (p := fun d => d.id == id) (l := r.connections) (·.kind) kind
    exact (coherent.counted k).trans (congrArg (List.count k) kinds.symm)

theorem toOption_eq_some {ε α : Type} {outcome : Except ε α} {a : α} :
    outcome.toOption = some a ↔ outcome = .ok a := by
  cases outcome <;> simp [Except.toOption]

theorem Coherent.discard_lent {receiver : Receiver} (coherent : r.Coherent (some ⟨id, receiver.endpoint⟩))
    (absent : r.connection? id = none) : (r.discard receiver).Coherent none := by
  have all : Loan.keepers (some ⟨id, receiver.endpoint⟩) r.connections = r.connections := by
    rw [connection?, List.find?_eq_none] at absent
    exact List.eraseP_of_forall_not absent
  have present := coherent.present
  rw [all] at present
  have unique := List.nodup_append.1 coherent.books.unique
  refine ⟨(receiver.drop_shrinks _).sound coherent.sound, ?_, present, coherent.counted⟩
  refine ⟨coherent.books.tracks, coherent.books.settled, ?_, ?_⟩ <;> rw [Loan.endpoints, Option.bind_none,
    Option.toList_none, List.append_nil]
  · exact unique.1
  · intro e mem
    refine (receiver.drop_isOpen _ e).2 ⟨coherent.books.isOpen e (List.mem_append_left _ mem), fun eq => ?_⟩
    exact unique.2.2 e mem e (by simp [Loan.endpoints, eq]) rfl

theorem Coherent.restore {receiver : Receiver} (coherent : r.Coherent (some ⟨id, receiver.endpoint⟩)) :
    (r.restore id receiver).Coherent none := by
  unfold Reactor.restore
  split
  · rename_i absent
    exact coherent.discard_lent absent
  · rename_i c found
    have settled := coherent.books.settled c (connection?_mem found)
    dsimp only
    split
    · rename_i moved
      -- The handler has changed the descriptor: the old one is no longer watched, and the new one is if there is room.
      obtain ⟨active, moved⟩ := moved
      obtain ⟨old, known⟩ := coherent.known found active
      rw [unwatchOf, known]
      dsimp only
      have gone : ∀ l : List Connection, r.table.Tracks (c.watch?.toList ++ l.filterMap watch?) →
          (r.table.disable old).2.Tracks (l.filterMap watch?) := by
        intro l tracks
        rw [watch?_of_active active known] at tracks
        exact tracks.disable
      split
      · rename_i table again
        obtain ⟨fd, new, enabled⟩ := Option.bind_eq_some_iff.1 again
        refine coherent.hold (f := (·.hold receiver)) found (fun _ => rfl) rfl ⟨Or.inr ⟨active, ?_⟩, ?_⟩ ?_
        · rw [Connection.hold, new]
          rfl
        · rintro _ ⟨⟩
          rfl
        · intro l tracks
          rw [watch?_of_active (c := c.hold receiver) active new]
          exact (gone l tracks).enable (toOption_eq_some.1 enabled)
      · change ((({ r with table := (r.table.disable old).2, host := (c.receiver.getD .released).drop r.host } :
          Reactor).update id (·.hold receiver)).update id Connection.pause).Coherent none
        rw [update_update (f := (·.hold receiver)) (fun _ => rfl)]
        refine coherent.hold (f := Connection.pause ∘ (·.hold receiver)) found (fun _ => rfl) rfl ⟨Or.inl rfl, ?_⟩ ?_
        · rintro _ ⟨⟩
          rfl
        · intro l tracks
          rw [Function.comp, watch?_of_inactive rfl]
          exact gone l tracks
    · rename_i stays
      have same : c.IsActive → receiver.fd? = c.fd := fun active => by
        by_contra moved
        exact stays ⟨active, Ne.symm moved⟩
      refine coherent.hold (f := (·.hold receiver)) found (fun _ => rfl) rfl ⟨?_, ?_⟩ fun l tracks => ?_
      · rcases settled.activity with inactive | ⟨active, known⟩
        · exact Or.inl inactive
        · rw [← same active] at known
          exact Or.inr ⟨active, known⟩
      · rintro _ ⟨⟩
        rfl
      · have watch : (c.hold receiver).watch? = c.watch? := by
          by_cases active : c.IsActive
          · rw [watch?, watch?, if_pos active, if_pos (show (c.hold receiver).IsActive from active),
              Connection.hold, same active]
          · rw [watch?, watch?, if_neg active, if_neg (show ¬(c.hold receiver).IsActive from active)]
        rw [watch]
        exact tracks

end Reactor

end TraceGate
