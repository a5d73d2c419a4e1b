namespace TraceGate.Text.Numeral

def digit? (c : Char) : Option Nat :=
  if '0' ≤ c ∧ c ≤ '9' then some (c.toNat - 48)
  else if 'a' ≤ c ∧ c ≤ 'f' then some (c.toNat - 87)
  else if 'A' ≤ c ∧ c ≤ 'F' then some (c.toNat - 55)
  else none

def digitIn? (base : Nat) (c : Char) : Option Nat := (digit? c).filter (· < base)

def extend? (base : Nat) : Nat → List Char → Option Nat
  | v, [] => some v
  | v, c :: cs => match digitIn? base c with
    | some d => extend? base (base * v + d) cs
    | none => none

def value? (base : Nat) (cs : List Char) : Option Nat :=
  if cs = [] then none else extend? base 0 cs

def unsigned : List Char → List Char
  | '+' :: cs => cs
  | cs => cs

def read? (base bound : Nat) (cs : List Char) : Option Nat :=
  (value? base (unsigned cs)).filter (· < bound)

def digitChar (d : Nat) : Char := if d < 10 then Char.ofNat (48 + d) else Char.ofNat (87 + d)

def write (base n : Nat) : List Char :=
  if _h : n < base ∨ base < 2 then [digitChar n]
  else write base (n / base) ++ [digitChar (n % base)]
termination_by n
decreasing_by exact Nat.div_lt_self (by omega) (by omega)

theorem digit?_digitChar {d : Nat} (h : d < 16) : digit? (digitChar d) = some d := by
  have : ∀ d : Fin 16, digit? (digitChar d) = some d.val := by decide
  exact this ⟨d, h⟩

theorem digitIn?_digitChar {base d : Nat} (hb : base ≤ 16) (h : d < base) :
    digitIn? base (digitChar d) = some d := by
  simp [digitIn?, digit?_digitChar (show d < 16 by omega), h]

theorem extend?_append (base v : Nat) (s t : List Char) :
    extend? base v (s ++ t) = (extend? base v s).bind fun w => extend? base w t := by
  induction s generalizing v with
  | nil => rfl
  | cons c s ih =>
    simp only [List.cons_append, extend?]
    cases digitIn? base c with
    | none => rfl
    | some d => exact ih _

theorem write_ne_nil (base n : Nat) : write base n ≠ [] := by
  unfold write; split <;> simp

theorem extend?_write {base : Nat} (h2 : 2 ≤ base) (hb : base ≤ 16) (n : Nat) :
    extend? base 0 (write base n) = some n := by
  induction n using Nat.strongRecOn with
  | ind n ih =>
    unfold write
    split
    · rename_i h
      simp [extend?, digitIn?_digitChar hb (show n < base by omega)]
    · rename_i h
      rw [extend?_append, ih (n / base) (Nat.div_lt_self (by omega) (by omega))]
      simp only [Option.bind_some, extend?,
        digitIn?_digitChar hb (Nat.mod_lt n (show 0 < base by omega)), Option.some.injEq]
      exact Nat.div_add_mod n base

def decimal (n : Nat) : String := String.ofList (write 10 n)

def hex (n : Nat) : String := String.ofList (write 16 n)

def signedDecimal (n : Int) : String :=
  if n < 0 then "-" ++ decimal n.natAbs else decimal n.natAbs

def secondsOfMillis (ms : Nat) : String :=
  let places := [ms / 100 % 10, ms / 10 % 10, ms % 10]
  let kept := (places.reverse.dropWhile (· == 0)).reverse
  let fraction := if kept.isEmpty then "" else "." ++ String.ofList (kept.map digitChar)
  decimal (ms / 1000) ++ fraction ++ "s"

end TraceGate.Text.Numeral
