import TraceGate.Proofs.Reactor.Coherence

namespace TraceGate

namespace Connection

def follow (policy : KindSet) (c : Connection) : Connection :=
  if c.kind ∈ policy then c.start
  else if c.IsActive then
    if c.kind = .clientConnect then c.shut else c.pause
  else c

variable {policy : KindSet} {c : Connection}

@[simp] theorem follow_id : (c.follow policy).id = c.id := by
  unfold follow
  repeat' split
  all_goals rfl

@[simp] theorem follow_kind : (c.follow policy).kind = c.kind := by
  unfold follow
  repeat' split
  all_goals rfl

theorem follow_isActive : (c.follow policy).IsActive ↔ c.kind ∈ policy := by
  unfold follow
  by_cases allowed : c.kind ∈ policy
  · rw [if_pos allowed]
    exact iff_of_true rfl allowed
  · rw [if_neg allowed]
    refine iff_of_false ?_ allowed
    split
    · split <;> intro active <;> cases active
    · assumption

theorem follow_fd (same : c.kind = .clientConnect → c.kind ∈ policy) : (c.follow policy).fd = c.fd := by
  unfold follow
  by_cases allowed : c.kind ∈ policy
  · rw [if_pos allowed]
    rfl
  · rw [if_neg allowed, if_neg (mt same allowed)]
    split <;> rfl

theorem follow_endpoint? {e : Endpoint} (held : (c.follow policy).endpoint? = some e) : c.endpoint? = some e := by
  unfold follow at held
  split at held
  · exact held
  · split at held
    · split at held
      · rw [shut_endpoint?] at held
        cases held
      · exact held
    · exact held

theorem follow_eq_self (already : c.IsActive ↔ c.kind ∈ policy) : c.follow policy = c := by
  unfold follow
  by_cases allowed : c.kind ∈ policy
  · have active := already.2 allowed
    rw [if_pos allowed, start, ← active]
  · rw [if_neg allowed, if_neg (mt already.1 allowed)]

def Closed (c : Connection) : Prop := c.kind = .clientConnect → ¬c.IsActive → c.fd = none

theorem closed_follow (closed : c.kind ∉ policy → c.Closed) : (c.follow policy).Closed := by
  intro listener idle
  rw [follow_kind] at listener
  rw [follow_isActive] at idle
  unfold follow
  rw [if_neg idle, if_pos listener]
  split
  · rfl
  · rename_i passive
    exact closed idle listener passive

/-- What a connection of a daemon keeps as long as it lives. -/
structure Regular (loan : Option Loan) (next : Nat) (c : Connection) : Prop where
  below : c.id < next
  borrowed : ∀ l, loan = some l → c.id = l.id → c.fd = l.endpoint.map (·.fd)
  lent : ∀ l, loan = some l → c.id = l.id → ∀ e, l.endpoint = some e → e.kind = .tcpListener →
    c.kind = .clientConnect
  known : c.kind ≠ .clientConnect → c.fd.isSome
  network : ∀ e, c.endpoint? = some e → e.kind = .tcpListener → c.kind = .clientConnect

def Away (loan : Option Loan) (c : Connection) : Prop :=
  ∀ l, loan = some l → c.id = l.id → c.kind ≠ .clientConnect

theorem Regular.follow {loan : Option Loan} {next : Nat} (regular : c.Regular loan next) (away : c.Away loan) :
    (c.follow policy).Regular loan next := by
  refine ⟨?_, fun l eq own => ?_, fun l eq own => ?_, fun other => ?_, fun e held network => ?_⟩
  · rw [follow_id]
    exact regular.below
  · rw [follow_id] at own
    rw [follow_fd fun listener => absurd listener (away l eq own)]
    exact regular.borrowed l eq own
  · rw [follow_id] at own
    rw [follow_kind]
    exact regular.lent l eq own
  · rw [follow_kind] at other
    rw [follow_fd fun listener => absurd listener other]
    exact regular.known other
  · rw [follow_kind]
    exact regular.network e (follow_endpoint? held) network

end Connection

end TraceGate
