import Mathlib.Data.List.Nodup
import Mathlib.Data.List.Perm.Basic
import Mathlib.Order.Nat
import TraceGate.Reactor.Table

namespace TraceGate

theorem eraseP_eq_filter {α β : Type} [DecidableEq β] {f : α → β} {l : List α} (distinct : (l.map f).Nodup) (b : β) :
    l.eraseP (f · == b) = l.filter (f · ≠ b) := by
  induction l with
  | nil => rfl
  | cons a l ih =>
      obtain ⟨apart, distinct⟩ := List.nodup_cons.1 distinct
      by_cases hit : f a = b
      · subst hit
        rw [List.eraseP_cons_of_pos (by simp), List.filter_cons_of_neg (by simp)]
        have rest : ∀ d ∈ l, f d ≠ f a := fun d mem same => apart (same ▸ List.mem_map_of_mem mem)
        exact (List.filter_eq_self.2 (by simpa using rest)).symm
      · rw [List.eraseP_cons_of_neg (by simpa using hit), List.filter_cons_of_pos (by simpa using hit), ih distinct]

def Slot.watch (s : Slot) : Int × Flags := (s.fd, s.wanted)

def Slot.unseen (s : Slot) : Slot := { s with seen := 0 }

namespace Table

variable {t t' : Table} {fd : Int} {wanted : Flags} {watched : List (Int × Flags)}

structure Tracks (t : Table) (watched : List (Int × Flags)) : Prop where
  fits : t.used ≤ t.slots.length
  same : (t.occupied.map Slot.watch).Perm watched
  distinct : (watched.map Prod.fst).Nodup

theorem contains_iff : t.contains fd = true ↔ fd ∈ t.occupied.map (·.fd) := by
  simp [contains]

theorem occupied_length (fits : t.used ≤ t.slots.length) : t.occupied.length = t.used := by
  rw [occupied, List.length_take]
  omega

theorem Tracks.occupied_nodup (tracks : t.Tracks watched) : (t.occupied.map (·.fd)).Nodup := by
  have mapped : t.occupied.map (·.fd) = (t.occupied.map Slot.watch).map Prod.fst := by
    rw [List.map_map]
    rfl
  rw [mapped]
  exact (tracks.same.map _).nodup_iff.2 tracks.distinct

theorem Tracks.contains_iff (tracks : t.Tracks watched) :
    t.contains fd = true ↔ fd ∈ watched.map Prod.fst := by
  rw [Table.contains_iff, ← (tracks.same.map Prod.fst).mem_iff, List.map_map]
  rfl

theorem Tracks.perm {watched' : List (Int × Flags)} (tracks : t.Tracks watched)
    (perm : watched.Perm watched') : t.Tracks watched' :=
  ⟨tracks.fits, tracks.same.trans perm, (perm.map _).nodup_iff.1 tracks.distinct⟩

theorem used_lt_grown (fits : t.used ≤ t.slots.length) : t.used < t.grown.length := by
  unfold grown
  split
  · rw [List.length_append, List.length_replicate]
    omega
  · omega

theorem take_grown (fits : t.used ≤ t.slots.length) : t.grown.take t.used = t.occupied := by
  unfold grown occupied
  split
  · exact List.take_append_of_le_length fits
  · rfl

theorem enable_eq_ok (enabled : t.enable fd wanted = .ok t') :
    0 ≤ fd ∧ t.contains fd = false ∧
      t' = { t with slots := t.grown.set t.used ⟨fd, wanted, 0⟩, used := t.used + 1 } := by
  unfold enable at enabled
  split at enabled
  · cases enabled
  · split at enabled
    · cases enabled
    · rename_i sign apart
      split at enabled
      · cases enabled
      · cases enabled
        exact ⟨by omega, by simpa using apart, rfl⟩

theorem enable_isOk (room : t.room = none) (sign : 0 ≤ fd) (apart : t.contains fd = false) :
    ∃ t', t.enable fd wanted = .ok t' := by
  have small : ¬fd < 0 := by omega
  have spacious : t.isFull = false := by simp [isFull, room]
  exact ⟨_, by rw [enable, if_neg small, apart, if_neg (by decide), spacious, if_neg (by decide)]⟩

theorem enable_room (enabled : t.enable fd wanted = .ok t') : t'.room = t.room := by
  obtain ⟨-, -, rfl⟩ := enable_eq_ok enabled
  rfl

theorem occupied_enable (fits : t.used ≤ t.slots.length) (enabled : t.enable fd wanted = .ok t') :
    t'.occupied = t.occupied ++ [⟨fd, wanted, 0⟩] := by
  obtain ⟨-, -, rfl⟩ := enable_eq_ok enabled
  have place := used_lt_grown fits
  rw [occupied, List.take_add_one, List.take_set_of_le (Nat.le_refl _), take_grown fits]
  simp [place]

theorem Tracks.enable (tracks : t.Tracks watched) (enabled : t.enable fd wanted = .ok t') :
    t'.Tracks ((fd, wanted) :: watched) := by
  obtain ⟨-, apart, eq⟩ := enable_eq_ok enabled
  refine ⟨?_, ?_, ?_⟩
  · have place := used_lt_grown tracks.fits
    rw [eq, List.length_set]
    exact place
  · rw [occupied_enable tracks.fits enabled, List.map_append]
    exact List.perm_append_comm.trans (tracks.same.cons _)
  · rw [List.map_cons, List.nodup_cons]
    refine ⟨fun mem => ?_, tracks.distinct⟩
    rw [tracks.contains_iff.2 mem] at apart
    cases apart

theorem occupied_disable (fits : t.used ≤ t.slots.length) :
    (t.disable fd).2.occupied = t.occupied.eraseP (fun s => s.fd == fd) := by
  rw [List.eraseP_eq_eraseIdx, disable]
  cases found : t.occupied.findIdx? (fun s => s.fd == fd) with
  | none => rfl
  | some i =>
      have bound := (List.findIdx?_eq_some_iff_findIdx_eq.1 found).1
      rw [occupied_length fits] at bound
      apply List.ext_getElem?
      intro j
      simp only [occupied, List.getElem?_take, List.getElem?_insertIdx, List.getElem?_eraseIdx]
      grind

theorem disable_room (t : Table) (fd : Int) : (t.disable fd).2.room = t.room := by
  unfold disable
  split <;> rfl

theorem fits_disable (fits : t.used ≤ t.slots.length) :
    (t.disable fd).2.used ≤ (t.disable fd).2.slots.length := by
  unfold disable
  split
  · exact fits
  · rename_i i found
    have bound := (List.findIdx?_eq_some_iff_findIdx_eq.1 found).1
    rw [occupied_length fits] at bound
    dsimp only
    rw [List.length_insertIdx, List.length_eraseIdx]
    grind

theorem Tracks.disable (tracks : t.Tracks ((fd, wanted) :: watched)) : (t.disable fd).2.Tracks watched := by
  have distinct := List.nodup_cons.1 tracks.distinct
  refine ⟨fits_disable tracks.fits, ?_, distinct.2⟩
  rw [occupied_disable tracks.fits]
  have present : (fd, wanted) ∈ t.occupied.map Slot.watch := tracks.same.mem_iff.2 List.mem_cons_self
  obtain ⟨s, mem, eq⟩ := List.mem_map.1 present
  have key : s.fd = fd := congrArg Prod.fst eq
  obtain ⟨s', before, after, -, key', split, erased⟩ :=
    List.exists_of_eraseP (p := fun s => s.fd == fd) mem (by simpa using key)
  have mem' : s' ∈ t.occupied := split ▸ List.mem_append_right _ List.mem_cons_self
  have same : s' = s := List.inj_on_of_nodup_map tracks.occupied_nodup mem' mem (by simp_all)
  rw [erased, ← List.perm_cons (fd, wanted)]
  refine List.Perm.trans ?_ tracks.same
  rw [split, same, ← eq, List.map_append, List.map_append, List.map_cons]
  exact List.perm_middle.symm

theorem disable_of_not_contains (apart : t.contains fd = false) : (t.disable fd).2 = t := by
  have absent : t.occupied.findIdx? (fun s => s.fd == fd) = none := by
    rw [List.findIdx?_eq_none_iff]
    simpa [contains] using apart
  rw [Table.disable, absent]

theorem occupied_replaced {l : List Slot} (length : l.length = t.used) :
    ({ t with slots := l ++ t.slots.drop t.used } : Table).occupied = l ∧
      t.used ≤ (l ++ t.slots.drop t.used).length := by
  refine ⟨?_, ?_⟩
  · rw [occupied, ← length, List.take_left]
  · rw [List.length_append]
    omega

theorem Tracks.record (tracks : t.Tracks watched) (seen : List Flags) : (t.record seen).Tracks watched := by
  have length := occupied_length tracks.fits
  have zipped : (t.occupied.zipWith (fun s f => { s with seen := f })
      (seen ++ List.replicate t.used 0)).length = t.used := by
    rw [List.length_zipWith, List.length_append, List.length_replicate]
    omega
  obtain ⟨occupied, fits⟩ := occupied_replaced zipped
  refine ⟨fits, ?_, tracks.distinct⟩
  have watch : (t.record seen).occupied.map Slot.watch = t.occupied.map Slot.watch := by
    rw [Table.record, occupied]
    apply List.ext_getElem
    · rw [List.length_map, List.length_map, zipped, length]
    · intro i _ _
      simp [Slot.watch]
  rw [watch]
  exact tracks.same

theorem Tracks.clear (tracks : t.Tracks watched) : t.clear.Tracks watched := by
  have mapped : (t.occupied.map ({ · with seen := 0 })).length = t.used := by
    rw [List.length_map, occupied_length tracks.fits]
  obtain ⟨occupied, fits⟩ := occupied_replaced mapped
  refine ⟨fits, ?_, tracks.distinct⟩
  rw [Table.clear, mapOccupied, occupied, List.map_map]
  exact tracks.same

def plain (t : Table) : Table := { t with slots := t.slots.map Slot.unseen }

theorem occupied_plain (t : Table) : t.plain.occupied = t.occupied.map Slot.unseen := List.map_take.symm

theorem enable_plain (t : Table) (fd : Int) (wanted : Flags) :
    t.plain.enable fd wanted = (t.enable fd wanted).map plain := by
  have contains : t.plain.contains fd = t.contains fd := by
    rw [Table.contains, occupied_plain, List.any_map]
    rfl
  have grown : t.plain.grown = t.grown.map Slot.unseen := by
    unfold Table.grown plain
    rw [List.length_map]
    split
    · rw [List.map_append, List.map_replicate]
      rfl
    · rfl
  have full : t.plain.isFull = t.isFull := by
    unfold Table.isFull
    rw [grown, List.length_map]
    simp [plain]
  have placed : (⟨fd, wanted, 0⟩ : Slot) = Slot.unseen ⟨fd, wanted, 0⟩ := rfl
  unfold Table.enable
  rw [contains, full, grown]
  split
  · rfl
  · split
    · rfl
    · split
      · rfl
      · rw [placed, ← List.map_set]
        rfl

theorem disable_plain (t : Table) (fd : Int) : t.plain.disable fd = ((t.disable fd).1, (t.disable fd).2.plain) := by
  have found : t.plain.occupied.findIdx? (fun s => s.fd == fd) = t.occupied.findIdx? fun s => s.fd == fd := by
    rw [occupied_plain, List.findIdx?_map]
    rfl
  unfold Table.disable
  rw [found]
  split
  · rfl
  · simp only [plain, List.eraseIdx_map, List.map_insertIdx]
    rfl

theorem plain_clear (t : Table) : t.clear.plain = t.plain := by
  have slots : (t.occupied.map Slot.unseen ++ t.slots.drop t.used).map Slot.unseen = t.slots.map Slot.unseen := by
    rw [List.map_append, List.map_map]
    change t.occupied.map Slot.unseen ++ _ = _
    rw [← List.map_append, occupied, List.take_append_drop]
  exact congrArg (fun slots => ({ t with slots } : Table)) slots

theorem plain_record (t : Table) (seen : List Flags) : (t.record seen).plain = t.plain := by
  have zipped : (t.occupied.zipWith (fun (s : Slot) f => { s with seen := f }) (seen ++ List.replicate t.used 0)).map
      Slot.unseen = t.occupied.map Slot.unseen := by
    have enough : t.occupied.length ≤ (seen ++ List.replicate t.used (0 : Flags)).length := by
      rw [occupied, List.length_take, List.length_append, List.length_replicate]
      omega
    apply List.ext_getElem
    · rw [List.length_map, List.length_map, List.length_zipWith]
      omega
    · intro i _ _
      simp [Slot.unseen]
  have slots : (t.occupied.zipWith (fun (s : Slot) f => { s with seen := f }) (seen ++ List.replicate t.used 0) ++
      t.slots.drop t.used).map Slot.unseen = t.slots.map Slot.unseen := by
    rw [List.map_append, zipped, ← List.map_append, occupied, List.take_append_drop]
  exact congrArg (fun slots => ({ t with slots } : Table)) slots

end Table

end TraceGate
