namespace TraceGate

inductive Kind where
  | clientConnect
  | clientMsgTcp
  | clientMsgSerial
  | appConnect
  | appMsg
  | oneSecondTimer
  | sixtySecondTimer
  | watchdogTimer
  | controlConnect
  | controlMsg
  | offlineTrace
  | offlineLogstorage
  | filterBackend
  | gateway
  | gatewayTimer
deriving DecidableEq, Repr

namespace Kind

def all : List Kind :=
  [clientConnect, clientMsgTcp, clientMsgSerial, appConnect, appMsg, oneSecondTimer,
    sixtySecondTimer, watchdogTimer, controlConnect, controlMsg, offlineTrace, offlineLogstorage,
    filterBackend, gateway, gatewayTimer]

def index : Kind → Nat
  | clientConnect => 0
  | clientMsgTcp => 1
  | clientMsgSerial => 2
  | appConnect => 3
  | appMsg => 4
  | oneSecondTimer => 5
  | sixtySecondTimer => 6
  | watchdogTimer => 7
  | controlConnect => 8
  | controlMsg => 9
  | offlineTrace => 10
  | offlineLogstorage => 11
  | filterBackend => 12
  | gateway => 13
  | gatewayTimer => 14

def ofIndex? (n : Nat) : Option Kind := all[n]?

theorem ofIndex?_index (k : Kind) : ofIndex? k.index = some k := by cases k <;> rfl

theorem index_lt (k : Kind) : k.index < 15 := by cases k <;> decide

theorem mem_all (k : Kind) : k ∈ all := by cases k <;> decide

theorem index_inj {k l : Kind} (h : k.index = l.index) : k = l := by
  have := congrArg ofIndex? h
  simpa [ofIndex?_index] using this

def name : Kind → String
  | clientConnect => "client-connect"
  | clientMsgTcp => "client-msg-tcp"
  | clientMsgSerial => "client-msg-serial"
  | appConnect => "app-connect"
  | appMsg => "app-msg"
  | oneSecondTimer => "one-second-timer"
  | sixtySecondTimer => "sixty-second-timer"
  | watchdogTimer => "watchdog-timer"
  | controlConnect => "control-connect"
  | controlMsg => "control-msg"
  | offlineTrace => "offline-trace"
  | offlineLogstorage => "offline-logstorage"
  | filterBackend => "filter-backend"
  | gateway => "gateway"
  | gatewayTimer => "gateway-timer"

def ofName? (s : String) : Option Kind := all.find? fun k => k.name == s

end Kind

@[ext] structure KindSet where
  /-- Bit `k.index` is set exactly when `k` belongs to the set. -/
  bits : BitVec 15
deriving DecidableEq, Repr

namespace KindSet

def ofBits (n : Nat) : KindSet := ⟨BitVec.ofNat 15 n⟩

instance : EmptyCollection KindSet where
  emptyCollection := ⟨0⟩

instance : Membership Kind KindSet where
  mem s k := s.bits.getLsbD k.index = true

instance (k : Kind) (s : KindSet) : Decidable (k ∈ s) :=
  inferInstanceAs (Decidable (s.bits.getLsbD k.index = true))

def single (k : Kind) : KindSet := ⟨BitVec.twoPow 15 k.index⟩

instance : Union KindSet where
  union s t := ⟨s.bits ||| t.bits⟩

def symmDiff (s t : KindSet) : KindSet := ⟨s.bits ^^^ t.bits⟩

def insert (s : KindSet) (k : Kind) : KindSet := s ∪ single k

def ofList (l : List Kind) : KindSet := l.foldl insert ∅

def toList (s : KindSet) : List Kind := Kind.all.filter (· ∈ s)

def isEmpty (s : KindSet) : Bool := s.bits == 0

def all : KindSet := ⟨BitVec.allOnes 15⟩

def standing : KindSet :=
  ofList [.appConnect, .appMsg, .oneSecondTimer, .sixtySecondTimer, .watchdogTimer,
    .controlConnect, .controlMsg, .filterBackend, .gateway, .gatewayTimer]

variable {k l : Kind} {s t : KindSet}

theorem mem_def : k ∈ s ↔ s.bits.getLsbD k.index = true := Iff.rfl

@[simp] theorem not_mem_empty : k ∉ (∅ : KindSet) := by
  simp [mem_def, EmptyCollection.emptyCollection]

@[simp] theorem mem_all : k ∈ all := by
  cases k <;> decide

@[simp] theorem mem_single : k ∈ single l ↔ k = l := by
  simp only [mem_def, single, BitVec.getLsbD_twoPow]
  constructor
  · intro h
    simp only [Bool.and_eq_true, decide_eq_true_eq] at h
    exact (Kind.index_inj h.2).symm
  · rintro rfl
    simp [Kind.index_lt]

@[simp] theorem mem_union : k ∈ s ∪ t ↔ k ∈ s ∨ k ∈ t := by
  simp [mem_def, Union.union, BitVec.getLsbD_or]

@[simp] theorem mem_insert : k ∈ s.insert l ↔ k ∈ s ∨ k = l := by
  simp [insert]

theorem mem_symmDiff : k ∈ symmDiff s t ↔ ¬(k ∈ s ↔ k ∈ t) := by
  simp only [mem_def, symmDiff, BitVec.getLsbD_xor]
  cases s.bits.getLsbD k.index <;> cases t.bits.getLsbD k.index <;> simp

@[simp] theorem mem_toList : k ∈ s.toList ↔ k ∈ s := by
  simp [toList, Kind.mem_all]

end KindSet

end TraceGate
