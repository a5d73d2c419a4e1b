import TraceGate.Proofs.Reactor.Moments
import TraceGate.Proofs.Reactor.Settling
import TraceGate.Proofs.Reactor.Tenure

namespace TraceGate

open Connection Relation

namespace Reactor

variable {r : Reactor} {c d : Connection} {id j : Nat} {loan : Option Loan} {policy : KindSet} {transition : Transition}
  {receiver : Receiver}

theorem unwatchOf_connection? (r : Reactor) (c : Connection) (j : Nat) :
    (r.unwatchOf c).connection? j = r.connection? j := by
  unfold unwatchOf
  cases c.fd <;> rfl

theorem remove_of_ne (other : j ≠ c.id) (r : Reactor) : (r.remove c).connection? j = r.connection? j :=
  find?_eraseP other.symm r.connections

theorem assign_of_ne (other : j ≠ id) (r : Reactor) (e : Endpoint) :
    (r.assign id e).2.connection? j = r.connection? j := by
  unfold assign
  dsimp only
  split
  · rfl
  · split
    · rfl
    · split
      · rfl
      · rename_i receiver _
        exact connection?_update_of_ne (f := (·.hold _)) (fun _ => rfl) other
          { r with host := (receiver.assign e r.host).2 }

theorem assign_error {e : Endpoint} {error : EventError} (failed : (r.assign id e).1 = .error error) :
    (r.assign id e).2.connection? j = r.connection? j := by
  unfold assign at failed ⊢
  dsimp only at failed ⊢
  split
  · rfl
  · rename_i c found
    simp only [found] at failed
    split
    · rfl
    · rename_i idle
      rw [if_neg idle] at failed
      split
      · rfl
      · rename_i receiver held
        rw [held] at failed
        cases failed

theorem assign_of_lent (found : r.connection? id = some c) (lent : c.receiver = none) (e : Endpoint) :
    (r.assign id e).1 ≠ .ok () := by
  unfold assign
  simp only [found, lent]
  split <;> simp

theorem restore_of_ne (other : j ≠ id) (r : Reactor) (receiver : Receiver) :
    (r.restore id receiver).connection? j = r.connection? j := by
  unfold restore
  split
  · rfl
  · rename_i c _
    have back : ((r.discardHeld c).update id (·.hold receiver)).connection? j = r.connection? j :=
      connection?_update_of_ne (f := (·.hold receiver)) (fun _ => rfl) other (r.discardHeld c)
    have unwatched := (unwatchOf_connection? ((r.discardHeld c).update id (·.hold receiver)) c j).trans back
    dsimp only
    split
    · split
      · exact unwatched
      · exact (connection?_update_of_ne (f := pause) (fun _ => rfl) other _).trans unwatched
    · exact back

theorem restore_of_inactive (found : r.connection? id = some c) (inactive : c.activity = .inactive)
    (receiver : Receiver) : r.restore id receiver = (r.discardHeld c).update id (·.hold receiver) := by
  unfold restore
  simp [found, IsActive, inactive]

theorem checkActivate_of_vacant (found : r.connection? id = some c) (inactive : c.activity = .inactive)
    (vacant : c.fd = none) : (r.checkActivate id policy transition).2 = r := by
  unfold Reactor.checkActivate
  simp only [found, inactive, decide_eq_true_eq]
  split
  · rw [Reactor.activate, vacant]
  · rfl

theorem checkActivate_of_unwanted (found : r.connection? c.id = some c) (active : c.IsActive)
    (unwanted : ¬(c.kind ∈ policy ∧ transition = .activate)) :
    (r.checkActivate c.id policy transition).2 = r.deactivate c := by
  have active : c.activity = .active := active
  unfold Reactor.checkActivate
  simp [found, active, unwanted]

theorem deactivate_host (listener : c.kind = .clientConnect) (r : Reactor) :
    (r.deactivate c).host = (c.receiver.getD .released).drop r.host := by
  unfold deactivate
  dsimp only
  rw [if_pos listener]
  exact congrArg (c.receiver.getD .released).drop (unwatchOf_host r c)

theorem Coherent.active_backed (coherent : r.Coherent loan) (found : r.connection? c.id = some c)
    (active : c.IsActive) (free : loan.map (·.id) ≠ some c.id) : ∃ e, c.endpoint? = some e ∧ c.fd = some e.fd := by
  obtain ⟨fd, known⟩ := coherent.known found active
  have kept : c ∈ Loan.keepers loan r.connections := by
    cases loan with
    | none => exact connection?_mem found
    | some l =>
        have other : c.id ≠ l.id := fun same => free (by rw [same]; rfl)
        exact (List.mem_eraseP_of_neg (by simpa using other)).2 (connection?_mem found)
  have same := (coherent.books.settled c (connection?_mem found)).fd_eq (coherent.present c kept)
  rw [known] at same
  obtain ⟨e, held, own⟩ := Option.map_eq_some_iff.1 same.symm
  exact ⟨e, held, by rw [known, own]⟩

end Reactor

namespace Moment

variable {m n p q : Moment} {c d : Connection} {id : Nat}

def Busy (id : Nat) (m : Moment) : Prop := m.loan.map (·.id) = some id

theorem leads_until {P : Moment → Prop} {Ends : Moment → Moment → Prop}
    (step : ∀ p q, Move p q → P p → P q ∨ Ends p q) (leads : Leads m n) (start : P m) :
    P n ∨ ∃ p q, Leads m p ∧ P p ∧ Ends p q ∧ Leads q n := by
  induction leads with
  | refl => exact Or.inl start
  | @tail p q before move ih =>
      rcases ih with stays | ⟨a, b, first, stays, ends, second⟩
      · rcases step p q move stays with stays' | ends
        · exact Or.inl stays'
        · exact Or.inr ⟨p, q, before, stays, ends, .refl⟩
      · exact Or.inr ⟨a, b, first, stays, ends, second.tail move⟩

inductive Replaces (id : Nat) (d : Connection) : Moment → Moment → Prop
  | removed (loan : Option Loan) (r : Reactor) : Replaces id d ⟨loan, r⟩ ⟨loan, r.remove d⟩
  | assigned (loan : Option Loan) (r : Reactor) (e : Endpoint) (ok : (r.assign id e).1 = .ok ()) :
      Replaces id d ⟨loan, r⟩ ⟨loan, (r.assign id e).2⟩

inductive Returns (id : Nat) : Moment → Moment → Prop
  | intro (r : Reactor) (receiver : Receiver) :
      Returns id ⟨some ⟨id, receiver.endpoint⟩, r⟩ ⟨none, r.restore id receiver⟩

theorem Move.passes (move : Move m n) (found : m.reactor.connection? id = some d) (inactive : d.activity = .inactive)
    (vacant : d.fd = none) :
    n.reactor.connection? id = some d ∧ (n.Busy id ↔ m.Busy id) ∨ Replaces id d m n ∨ Returns id m n := by
  -- Without a descriptor the connection cannot be activated, and while it is idle no handler is lent its receiver.
  cases move with
  | checkActivate j policy transition =>
      by_cases own : id = j
      · subst own
        dsimp only
        rw [Reactor.checkActivate_of_vacant found inactive vacant]
        exact Or.inl ⟨found, Iff.rfl⟩
      · exact Or.inl ⟨(Reactor.checkActivate_of_ne own policy).trans found, Iff.rfl⟩
  | number => exact Or.inl ⟨found, Iff.rfl⟩
  | @add loan r j kind receiver wanted loose =>
      refine Or.inl ⟨?_, Iff.rfl⟩
      have found : r.connections.find? (·.id == id) = some d := found
      exact List.find?_append.trans (by rw [found]; rfl)
  | @remove loan r c known idle =>
      by_cases own : id = c.id
      · subst own
        cases known.symm.trans found
        exact Or.inr (Or.inl (.removed loan r))
      · exact Or.inl ⟨(Reactor.remove_of_ne own r).trans found, Iff.rfl⟩
  | @assign loan r j e loose =>
      by_cases own : id = j
      · subst own
        cases outcome : (r.assign id e).1 with
        | ok => exact Or.inr (Or.inl (.assigned loan r e outcome))
        | error error => exact Or.inl ⟨(Reactor.assign_error outcome).trans found, Iff.rfl⟩
      · exact Or.inl ⟨(Reactor.assign_of_ne own r e).trans found, Iff.rfl⟩
  | @outside loan loan' r r' elapses number lent =>
      have same : r'.connections = r.connections := by rw [elapses.rest]
      refine Or.inl ⟨?_, by rw [Busy, Busy, number]⟩
      rw [← found]
      exact congrArg (List.find? fun c => c.id == id) same
  | record seen => exact Or.inl ⟨found, Iff.rfl⟩
  | clear => exact Or.inl ⟨found, Iff.rfl⟩
  | @lend r c receiver known active held =>
      by_cases own : id = c.id
      · subst own
        cases known.symm.trans found
        rw [IsActive, inactive] at active
        cases active
      · refine Or.inl ⟨?_, by simp [Busy, Ne.symm own]⟩
        exact (Reactor.connection?_update_of_ne (f := Connection.lend) (fun _ => rfl) own r).trans found
  | @restore r j receiver =>
      by_cases own : id = j
      · subst own
        exact Or.inr (Or.inr (.intro r receiver))
      · exact Or.inl ⟨(Reactor.restore_of_ne own r receiver).trans found, by simp [Busy, Ne.symm own]⟩

theorem Move.absent (move : Move m n) (gone : m.reactor.connection? id = none) (busy : m.Busy id) :
    n.reactor.connection? id = none ∧ n.Busy id ∨ (∃ b, n.reactor.connection? id = some b) ∨ Returns id m n := by
  cases later : n.reactor.connection? id with
  | some b => exact Or.inr (Or.inl ⟨b, rfl⟩)
  | none =>
      cases move with
      | outside elapses number lent => exact Or.inl ⟨rfl, number.symm.trans busy⟩
      | record seen => cases busy
      | clear => cases busy
      | lend found active held => cases busy
      | @restore r j receiver =>
          obtain rfl : j = id := Option.some.inj busy
          exact Or.inr (Or.inr (.intro r receiver))
      | _ => exact Or.inl ⟨rfl, busy⟩

inductive Resolved (id : Nat) (d : Connection) : Moment → Moment → Prop
  | back {r : Reactor} {receiver : Receiver} (found : r.connection? id = some d)
      (held : (r.restore id receiver).connection? id = some (d.hold receiver))
      (isOpen : ∀ e, receiver.endpoint = some e → (r.restore id receiver).host.IsOpen e) :
      Resolved id d ⟨some ⟨id, receiver.endpoint⟩, r⟩ ⟨none, r.restore id receiver⟩
  | dropped {r : Reactor} {receiver : Receiver} (gone : r.connection? id = none)
      (closed : ∀ e, receiver.endpoint = some e → ¬(r.restore id receiver).host.IsOpen e) :
      Resolved id d ⟨some ⟨id, receiver.endpoint⟩, r⟩ ⟨none, r.restore id receiver⟩
  | displaced {p q : Moment} {b : Connection} (gone : p.reactor.connection? id = none ∨ q.reactor = p.reactor.remove d)
      (found : q.reactor.connection? id = some b) : Resolved id d p q

theorem Move.replaces (move : Move m n) (inactive : d.activity = .inactive) (vacant : d.fd = none)
    (stands : m.reactor.connection? id = some d ∧ ¬m.Busy id) :
    (n.reactor.connection? id = some d ∧ ¬n.Busy id) ∨ Replaces id d m n := by
  rcases move.passes stands.1 inactive vacant with ⟨found, same⟩ | replaces | ⟨r, receiver⟩
  · exact Or.inl ⟨found, mt same.1 stands.2⟩
  · exact Or.inr replaces
  · exact absurd rfl stands.2

structure Pending (id : Nat) (d : Connection) (m : Moment) : Prop where
  coherent : m.Coherent
  busy : m.Busy id
  stands : m.reactor.connection? id = some d ∨ m.reactor.connection? id = none

theorem Move.resolved (move : Move m n) (inactive : d.activity = .inactive) (vacant : d.fd = none)
    (lent : d.receiver = none) (pending : Pending id d m) : Pending id d n ∨ Resolved id d m n := by
  have coherent := move.coherent pending.coherent
  rcases pending.stands with found | gone
  · rcases move.passes found inactive vacant with ⟨still, same⟩ | (⟨loan, r⟩ | ⟨loan, r, e, ok⟩) | ⟨r, receiver⟩
    · exact Or.inl ⟨coherent, same.2 pending.busy, Or.inl still⟩
    · cases later : (r.remove d).connection? id with
      | none => exact Or.inl ⟨coherent, pending.busy, Or.inr later⟩
      | some b => exact Or.inr (.displaced (Or.inr rfl) later)
    · exact absurd ok (Reactor.assign_of_lent found lent e)
    · have outcome := Reactor.restore_of_inactive found inactive receiver
      refine Or.inr (.back found ?_ fun e own => ?_)
      · rw [outcome]
        exact Reactor.update_connection? (r := r.discardHeld d) (fun _ => rfl) found
      · have before : r.host.IsOpen e := pending.coherent.books.isOpen e
          (List.mem_append_right _ (by simp [Loan.endpoints, own]))
        have host : (r.restore id receiver).host = r.host := by
          rw [outcome, Reactor.discardHeld, lent]
          rfl
        rwa [host]
  · rcases move.absent gone pending.busy with ⟨still, busy⟩ | ⟨b, found⟩ | ⟨r, receiver⟩
    · exact Or.inl ⟨coherent, busy, Or.inr still⟩
    · exact Or.inr (.displaced (Or.inl gone) found)
    · refine Or.inr (.dropped gone fun e own isOpen => ?_)
      have gone : r.connection? id = none := gone
      rw [Reactor.restore, gone] at isOpen
      exact ((receiver.drop_isOpen _ e).1 isOpen).2 own

/-- What the deactivation of a client listener comes to. -/
structure Released (id : Nat) (c : Connection) (m n : Moment) : Prop where
  shut : n.reactor.connection? id = some c.shut
  closed : ∀ e, c.endpoint? = some e → m.reactor.host.IsOpen e ∧ ∀ p, Leads n p → ¬p.reactor.host.IsOpen e
  /-- If its handler is not running, it has an endpoint to give up, and stays without one. -/
  idle : ¬m.Busy id → (∃ e, c.endpoint? = some e ∧ c.fd = some e.fd) ∧ ∀ p, Leads n p →
    p.reactor.connection? id = some c.shut ∨
      ∃ a b, Leads n a ∧ a.reactor.connection? id = some c.shut ∧ Replaces id c.shut a b ∧ Leads b p
  /-- If its handler has the receiver, no socket is closed until the handler returns. -/
  lent : c.receiver = none → m.Busy id ∧ n.reactor.host = m.reactor.host ∧ ∀ p, Leads n p →
    Pending id c.shut p ∨ ∃ a b, Leads n a ∧ Pending id c.shut a ∧ Resolved id c.shut a b ∧ Leads b p

theorem Coherent.closes (coherent : m.Coherent) (found : m.reactor.connection? c.id = some c)
    (listener : c.kind = .clientConnect) {e : Endpoint} (held : c.endpoint? = some e) :
    m.reactor.host.IsOpen e ∧ ∀ p, Leads ⟨m.loan, m.reactor.deactivate c⟩ p → ¬p.reactor.host.IsOpen e := by
  have coherent : m.reactor.Coherent m.loan := coherent
  have host := Reactor.deactivate_host listener m.reactor
  have isOpen : m.reactor.host.IsOpen e := coherent.books.isOpen e
    (List.mem_append_left _ (List.mem_filterMap.2 ⟨c, Reactor.connection?_mem found, held⟩))
  have old : e.id < (m.reactor.deactivate c).host.next := by
    rw [host, ((c.receiver.getD .released).drop_shrinks _).next_eq]
    exact coherent.sound.numbers e isOpen
  have closed : ¬(m.reactor.deactivate c).host.IsOpen e := by
    rw [host]
    exact fun still => ((c.receiver.getD .released).drop_isOpen _ e |>.1 still).2 (by rw [endpoint?_eq, held])
  exact ⟨isOpen, fun p leads => leads.closed old closed⟩

theorem Coherent.busy_of_lent (coherent : m.Coherent) (found : m.reactor.connection? c.id = some c)
    (active : c.IsActive) (lent : c.receiver = none) : m.Busy c.id := by
  by_contra free
  obtain ⟨e, held, -⟩ := Reactor.Coherent.active_backed coherent found active free
  rw [endpoint?, lent] at held
  cases held

theorem Coherent.released (coherent : m.Coherent) (found : m.reactor.connection? c.id = some c)
    (listener : c.kind = .clientConnect) (active : c.IsActive) {policy : KindSet} {transition : Transition}
    (unwanted : ¬(c.kind ∈ policy ∧ transition = .activate)) :
    Released c.id c m ⟨m.loan, (m.reactor.checkActivate c.id policy transition).2⟩ := by
  have coherent' := (Move.checkActivate c.id policy transition).coherent coherent
  rw [Reactor.checkActivate_of_unwanted found active unwanted] at coherent' ⊢
  have shut : (m.reactor.deactivate c).connection? c.id = some c.shut := by
    rw [Reactor.deactivate_connection? found, if_pos listener]
  refine ⟨shut, fun e held => coherent.closes found listener held, fun free => ⟨?_, fun p leads => ?_⟩,
    fun receiver => ?_⟩
  · exact Reactor.Coherent.active_backed coherent found active free
  · have stays := leads_until (P := fun a => a.reactor.connection? c.id = some c.shut ∧ ¬a.Busy c.id)
      (fun a b move => move.replaces rfl rfl) leads ⟨shut, free⟩
    rcases stays with ⟨found, -⟩ | ⟨a, b, first, ⟨found, -⟩, replaces, second⟩
    · exact Or.inl found
    · exact Or.inr ⟨a, b, first, found, replaces, second⟩
  · have busy := coherent.busy_of_lent found active receiver
    have lent : c.shut.receiver = none := by rw [Connection.shut, receiver]; rfl
    refine ⟨busy, ?_, fun p leads => ?_⟩
    · exact (Reactor.deactivate_host listener m.reactor).trans (by rw [receiver]; rfl)
    · exact leads_until (fun a b move => move.resolved rfl rfl lent) leads ⟨coherent', busy, Or.inl shut⟩

end Moment

namespace Reactor

open Moment

variable {r : Reactor}

/-- Whenever a client listener is deactivated, in an operation or by a handler in a round, the socket that it holds is
closed for good, and it is without a descriptor until it is removed or assigned another endpoint. But if its own handler
has the socket, this stays open, and the connection has the descriptor again when the handler returns. -/
theorem Reachable.deactivation_releases (reachable : r.Reachable) :
    (∀ error r', Operation anyGift none r error r' → Leads ⟨none, r⟩ ⟨none, r'⟩) ∧
    (∀ (σ : Type) (wait : Wait) (handlers : Kind → Handler σ) (state : σ), (∀ kind, (handlers kind).Acts anyGift) →
      Leads ⟨none, r⟩ ⟨none, (r.round wait handlers state).2.1⟩ ∧
      ∀ id s, Meets wait handlers r state id s → Leads ⟨none, r⟩ (s.moment id)) ∧
    ∀ m, Leads ⟨none, r⟩ m → ∀ id c policy transition, m.reactor.connection? id = some c → c.kind = .clientConnect →
      c.IsActive → ¬(c.kind ∈ policy ∧ transition = .activate) →
        Released id c m ⟨m.loan, (m.reactor.checkActivate id policy transition).2⟩ := by
  have coherent := reachable.coherent
  refine ⟨fun error r' operation => operation.leads coherent, fun σ wait handlers state acts => ?_,
    fun m leads id c policy transition found listener active unwanted => ?_⟩
  · exact ⟨coherent.leads_round wait acts state, fun id s meets => meets.leads acts coherent⟩
  · obtain rfl := (connection?_split found).1
    exact (leads.coherent coherent).released found listener active unwanted

end Reactor

namespace Lingering

open Moment

def socket : Endpoint × Host := ({} : Host).openEndpoint .tcpListener (.listener none [])

def start : Reactor :=
  (({ host := socket.2 } : Reactor).register .all .clientConnect (.ofEndpoint socket.1) Flags.input).2

def close (_ : Kind) : Handler Unit := fun id => Turn.reactor fun r => ((), (r.checkActivate id ∅ .deactivate).2)

theorem close_acts (kind : Kind) : (close kind).Acts anyGift := by
  intro id s _
  exact .single (.operation (.checkActivate id ∅ .deactivate))

theorem start_reachable : start.Reachable := by
  have sound : socket.2.Sound := (Host.grows_openEndpoint _ _ _).sound ⟨List.nodup_nil, by rintro e ⟨⟩⟩
  have fresh : ({ host := socket.2 } : Reactor).Reachable := .new sound {} none
  refine fresh.operation (.register .all .clientConnect (.ofEndpoint socket.1) Flags.input ?_ fun _ _ => trivial)
  rintro _ ⟨⟩
  unfold Reactor.Loose Host.IsOpen
  decide

def listener : Connection where
  id := 1
  kind := .clientConnect
  activity := .active
  wanted := Flags.input
  receiver := none
  fd := some 3

def moment : Moment := ⟨some ⟨1, some socket.1⟩, (start.awoken [Flags.input]).update 1 Connection.lend⟩

theorem start_meets : Reactor.Meets (Round.wait [(3, Flags.input)]) close start () 1
    ((start.awoken [Flags.input]).opening 1 (.ofEndpoint socket.1) ()) := by
  have seen : Round.wait [(3, Flags.input)] start.host start.table.occupied = .ok ⟨1, [Flags.input]⟩ := rfl
  have ready : ({ start with table := start.table.record [Flags.input] } : Reactor).sightings =
      [⟨3, Flags.input, some 1⟩] := by decide
  have target : Reactor.Sighting.target? ⟨3, Flags.input, some 1⟩ (start.awoken [Flags.input]) =
      some { listener with receiver := some (.ofEndpoint socket.1) } := by decide
  refine .intro seen ?_ target rfl .refl
  rw [ready]
  exact .here

theorem listener_lingers :
    Released 1 listener moment ⟨moment.loan, (moment.reactor.checkActivate 1 ∅ .deactivate).2⟩ ∧
    (start.round (Round.wait [(3, Flags.input)]) close ()).2.1.connection? 1 =
      some (listener.shut.hold (.ofEndpoint socket.1)) ∧
    (start.round (Round.wait [(3, Flags.input)]) close ()).2.1.host.IsOpen socket.1 := by
  obtain ⟨-, rounds, releases⟩ := Reactor.Reachable.deactivation_releases start_reachable
  have leads : Leads ⟨none, start⟩ moment := (rounds Unit _ close () close_acts).2 1 _ start_meets
  have released := releases moment leads 1 listener ∅ .deactivate (by decide) rfl rfl (by decide)
  exact ⟨released, by decide, by unfold Host.IsOpen; decide⟩

end Lingering

end TraceGate
