import TraceGate.Proofs.Host.Ownership
import TraceGate.Proofs.Reactor.Table
import TraceGate.Reactor.State

/-!
# The books of a reactor

`Books` relates connections to the table and to the host, whatever the order of the connections: the
table watches exactly the descriptors of the active ones, and every endpoint that a connection holds is
open and held by no other. Endpoints that are lent to a handler are kept apart.

Each lemma changes the connection at the head of the list, with the table and the host beside it.
-/

namespace TraceGate

namespace Connection

def endpoint? (c : Connection) : Option Endpoint := c.receiver.bind (·.endpoint)

def watch? (c : Connection) : Option (Int × Flags) :=
  if c.IsActive then c.fd.map fun (fd : Nat) => ((fd : Int), c.wanted) else none

structure Settled (c : Connection) : Prop where
  activity : c.activity = .inactive ∨ c.activity = .active ∧ c.fd.isSome
  fd : ∀ receiver, c.receiver = some receiver → c.fd = receiver.fd?

variable {c : Connection}

theorem watch?_of_active (active : c.IsActive) {fd : Nat} (hfd : c.fd = some fd) :
    c.watch? = some ((fd : Int), c.wanted) := by
  rw [watch?, if_pos active, hfd]
  rfl

theorem watch?_of_inactive (inactive : c.activity = .inactive) : c.watch? = none := by
  rw [watch?, if_neg]
  rw [IsActive, inactive]
  decide

theorem endpoint?_of_receiver {receiver : Receiver} (h : c.receiver = some receiver) :
    c.endpoint? = receiver.endpoint := by
  rw [endpoint?, h]
  rfl

theorem endpoint?_eq (c : Connection) : (c.receiver.getD .released).endpoint = c.endpoint? := by
  cases h : c.receiver <;> simp [endpoint?, h, Receiver.released]

theorem Settled.fd_eq (settled : c.Settled) (held : c.receiver.isSome) :
    c.fd = c.endpoint?.map (·.fd) := by
  obtain ⟨receiver, eq⟩ := Option.isSome_iff_exists.1 held
  rw [settled.fd receiver eq, endpoint?_of_receiver eq, Receiver.fd?]

theorem Settled.inactive (settled : c.Settled) (idle : ¬c.IsActive) : c.activity = .inactive := by
  rcases settled.activity with inactive | ⟨active, -⟩
  · exact inactive
  · exact absurd active idle

theorem Settled.pause (settled : c.Settled) : c.pause.Settled := ⟨Or.inl rfl, settled.fd⟩

theorem Settled.shut (_ : c.Settled) : c.shut.Settled := by
  refine ⟨Or.inl rfl, fun receiver eq => ?_⟩
  obtain ⟨old, -, rfl⟩ := Option.map_eq_some_iff.1 eq
  rfl

theorem Settled.start (settled : c.Settled) (known : c.fd.isSome) : c.start.Settled :=
  ⟨Or.inr ⟨rfl, known⟩, settled.fd⟩

theorem shut_endpoint? (c : Connection) : c.shut.endpoint? = none := by
  cases h : c.receiver <;> simp [endpoint?, shut, h, Receiver.released]

end Connection

open Connection

theorem filterMap_cons_toList {α β : Type} (f : α → Option β) (a : α) (l : List α) :
    (a :: l).filterMap f = (f a).toList ++ l.filterMap f := by
  cases h : f a <;> simp [h]

namespace Receiver

variable {h : Host} {e : Endpoint}

theorem drop_isOpen (receiver : Receiver) (h : Host) (e : Endpoint) :
    (receiver.drop h).IsOpen e ↔ h.IsOpen e ∧ receiver.endpoint ≠ some e := by
  unfold drop
  split
  · rename_i none
    simp [none]
  · rename_i own some
    rw [some, Host.close_isOpen]
    simp [eq_comm]

theorem drop_shrinks (receiver : Receiver) (h : Host) : Host.Shrinks h (receiver.drop h) := by
  unfold drop
  split
  · exact .refl h
  · exact Host.close_shrinks h _

end Receiver

structure Books (connections : List Connection) (table : Table) (host : Host) (lent : List Endpoint) : Prop where
  tracks : table.Tracks (connections.filterMap watch?)
  settled : ∀ c ∈ connections, c.Settled
  unique : (connections.filterMap endpoint? ++ lent).Nodup
  isOpen : ∀ e ∈ connections.filterMap endpoint? ++ lent, host.IsOpen e

namespace Books

variable {connections l : List Connection} {c : Connection} {table : Table} {host host' : Host}
  {lent : List Endpoint}

theorem perm {connections' : List Connection} (books : Books connections table host lent)
    (perm : connections.Perm connections') : Books connections' table host lent := by
  have endpoints := (perm.filterMap endpoint?).append_right lent
  exact ⟨books.tracks.perm (perm.filterMap _), fun c mem => books.settled c (perm.mem_iff.2 mem),
    endpoints.nodup_iff.1 books.unique, fun e mem => books.isOpen e (endpoints.mem_iff.2 mem)⟩

theorem keep (books : Books connections table host lent)
    (kept : ∀ e ∈ connections.filterMap endpoint? ++ lent, host'.IsOpen e) :
    Books connections table host' lent :=
  ⟨books.tracks, books.settled, books.unique, kept⟩

theorem grow (books : Books connections table host lent) (grows : Host.Grows host host') :
    Books connections table host' lent :=
  books.keep fun e mem => grows.kept e (books.isOpen e mem)

theorem cons_iff : Books (c :: l) table host lent ↔
    table.Tracks (c.watch?.toList ++ l.filterMap watch?) ∧ c.Settled ∧ (∀ d ∈ l, d.Settled) ∧
      (l.filterMap endpoint? ++ lent).Nodup ∧ (∀ e ∈ l.filterMap endpoint? ++ lent, host.IsOpen e) ∧
      ∀ e, c.endpoint? = some e → host.IsOpen e ∧ e ∉ l.filterMap endpoint? ++ lent := by
  constructor
  · rintro ⟨tracks, settled, unique, isOpen⟩
    rw [filterMap_cons_toList, List.append_assoc] at unique isOpen
    rw [filterMap_cons_toList] at tracks
    obtain ⟨-, rest, apart⟩ := List.nodup_append.1 unique
    refine ⟨tracks, settled c List.mem_cons_self, fun d mem => settled d (List.mem_cons_of_mem _ mem), rest,
      fun e mem => isOpen e (List.mem_append_right _ mem), fun e eq => ?_⟩
    have own : e ∈ c.endpoint?.toList := by simp [eq]
    exact ⟨isOpen e (List.mem_append_left _ own), fun mem => apart e own e mem rfl⟩
  · rintro ⟨tracks, settledHead, settled, rest, isOpen, own⟩
    refine ⟨?_, List.forall_mem_cons.2 ⟨settledHead, settled⟩, ?_, ?_⟩
    · rwa [filterMap_cons_toList]
    · rw [filterMap_cons_toList, List.append_assoc]
      cases eq : c.endpoint? with
      | none => exact rest
      | some e => exact List.nodup_cons.2 ⟨(own e eq).2, rest⟩
    · intro e mem
      rw [filterMap_cons_toList, List.append_assoc, List.mem_append] at mem
      rcases mem with mine | others
      · exact (own e (by simpa using mine)).1
      · exact isOpen e others

theorem tail_isOpen_drop (books : Books (c :: l) table host lent) :
    ∀ e ∈ l.filterMap endpoint? ++ lent, ((c.receiver.getD .released).drop host).IsOpen e := by
  obtain ⟨-, -, -, -, isOpen, own⟩ := cons_iff.1 books
  intro e mem
  refine (Receiver.drop_isOpen _ host e).2 ⟨isOpen e mem, fun eq => ?_⟩
  exact (own e (endpoint?_eq c ▸ eq)).2 mem

theorem untrack (books : Books (c :: l) table host lent) {fd : Nat} (active : c.IsActive) (hfd : c.fd = some fd) :
    (table.disable fd).2.Tracks (l.filterMap watch?) := by
  have tracks := (cons_iff.1 books).1
  rw [watch?_of_active active hfd] at tracks
  exact tracks.disable

theorem pause (books : Books (c :: l) table host lent) {fd : Nat} (active : c.IsActive) (hfd : c.fd = some fd) :
    Books (c.pause :: l) (table.disable fd).2 host lent := by
  obtain ⟨-, settledHead, rest⟩ := cons_iff.1 books
  refine cons_iff.2 ⟨?_, settledHead.pause, rest⟩
  rw [watch?_of_inactive rfl]
  exact books.untrack active hfd

theorem shut (books : Books (c :: l) table host lent) {fd : Nat} (active : c.IsActive) (hfd : c.fd = some fd)
    (kept : ∀ e ∈ l.filterMap endpoint? ++ lent, host'.IsOpen e) :
    Books (c.shut :: l) (table.disable fd).2 host' lent := by
  obtain ⟨-, settledHead, settled, rest, -, -⟩ := cons_iff.1 books
  refine cons_iff.2 ⟨?_, settledHead.shut, settled, rest, kept, fun e eq => ?_⟩
  · rw [watch?_of_inactive rfl]
    exact books.untrack active hfd
  · rw [shut_endpoint?] at eq
    cases eq

theorem start (books : Books (c :: l) table host lent) {fd : Nat} {table' : Table}
    (inactive : c.activity = .inactive) (hfd : c.fd = some fd) (enabled : table.enable fd c.wanted = .ok table') :
    Books (c.start :: l) table' host lent := by
  obtain ⟨tracks, settledHead, rest⟩ := cons_iff.1 books
  refine cons_iff.2 ⟨?_, settledHead.start (by rw [hfd]; rfl), rest⟩
  have active : c.start.watch? = some ((fd : Int), c.wanted) := watch?_of_active rfl hfd
  rw [watch?_of_inactive inactive] at tracks
  rw [active]
  exact tracks.enable enabled

theorem remove (books : Books (c :: l) table host lent) (inactive : c.activity = .inactive)
    (kept : ∀ e ∈ l.filterMap endpoint? ++ lent, host'.IsOpen e) : Books l table host' lent := by
  obtain ⟨tracks, -, settled, rest, -, -⟩ := cons_iff.1 books
  rw [watch?_of_inactive inactive] at tracks
  exact ⟨tracks, settled, rest, kept⟩

theorem add (books : Books l table host lent) (inactive : c.activity = .inactive) (settled : c.Settled)
    (loose : ∀ e, c.endpoint? = some e → host.IsOpen e ∧ e ∉ l.filterMap endpoint? ++ lent) :
    Books (c :: l) table host lent := by
  refine cons_iff.2 ⟨?_, settled, books.settled, books.unique, books.isOpen, loose⟩
  rw [watch?_of_inactive inactive]
  exact books.tracks

theorem lend (books : Books (c :: l) table host []) : Books (c.lend :: l) table host c.endpoint?.toList := by
  obtain ⟨tracks, settledHead, settled, rest, isOpen, own⟩ := cons_iff.1 books
  rw [List.append_nil] at rest isOpen own
  have apart : ∀ e ∈ c.endpoint?.toList, e ∉ l.filterMap endpoint? := by
    intro e mem
    exact (own e (by simpa using mem)).2
  refine cons_iff.2 ⟨tracks, ⟨settledHead.activity, fun _ eq => by cases eq⟩, settled, ?_, ?_, fun e eq => by cases eq⟩
  · refine List.nodup_append.2 ⟨rest, ?_, ?_⟩
    · cases c.endpoint? <;> simp
    · rintro e mem e' own rfl
      exact apart e own mem
  · intro e mem
    rcases List.mem_append.1 mem with others | mine
    · exact isOpen e others
    · exact (own e (by simpa using mine)).1

theorem hold (books : Books (c :: l) table host lent) {c' : Connection} {table' : Table}
    (tracks : table'.Tracks (c'.watch?.toList ++ l.filterMap watch?)) (settled : c'.Settled)
    (returned : lent = c'.endpoint?.toList) (kept : ∀ e ∈ l.filterMap endpoint? ++ lent, host'.IsOpen e) :
    Books (c' :: l) table' host' [] := by
  obtain ⟨-, -, settledTail, rest, -, -⟩ := cons_iff.1 books
  subst returned
  have unique := List.nodup_append.1 rest
  refine cons_iff.2 ⟨tracks, settled, settledTail, ?_, ?_, ?_⟩ <;> rw [List.append_nil]
  · exact unique.1
  · exact fun e mem => kept e (List.mem_append_left _ mem)
  · intro e eq
    have mine : e ∈ c'.endpoint?.toList := by simp [eq]
    exact ⟨kept e (List.mem_append_right _ mine), fun others => unique.2.2 e others e mine rfl⟩

end Books

end TraceGate
