/-!
Digits: a digit's value, the digit of a value, and the numbers that digits write.
-/

namespace ChangeGate.Text

def decimalDigit? (c : Char) : Option Nat :=
  if '0' ≤ c ∧ c ≤ '9' then some (c.toNat - '0'.toNat) else none

/-- The value of a hexadecimal digit, in either case. -/
def hexDigit? (c : Char) : Option Nat :=
  if '0' ≤ c ∧ c ≤ '9' then some (c.toNat - '0'.toNat)
  else if 'a' ≤ c ∧ c ≤ 'f' then some (c.toNat - 'a'.toNat + 10)
  else if 'A' ≤ c ∧ c ≤ 'F' then some (c.toNat - 'A'.toNat + 10)
  else none

/-- The number that digits of a base up to sixteen write. There must be a digit. -/
def ofDigits? (base : Nat) (digits : List Char) : Option Nat :=
  if digits.isEmpty then none
  else digits.foldlM (fun n c => do
    let d ← hexDigit? c
    if d < base then some (base * n + d) else none) 0

/-- The lower-case hexadecimal digit of a value below sixteen. -/
def hexDigit (n : Nat) : Char :=
  Char.ofNat (if n < 10 then '0'.toNat + n else 'a'.toNat + (n - 10))

/-- The number that hexadecimal digits write, most significant first, after those of `n`. -/
def ofHexDigits? (n : Nat) : List Char → Option Nat
  | [] => some n
  | c :: rest => do ofHexDigits? (16 * n + (← hexDigit? c)) rest

/-- The last `count` hexadecimal digits of a number, most significant first. -/
def hexDigits (n : Nat) : Nat → List Char
  | 0 => []
  | count + 1 => hexDigits (n / 16) count ++ [hexDigit (n % 16)]

/-- The hexadecimal digits of a number, none of them a leading zero; `0` for zero. -/
def hexText (n : Nat) : List Char :=
  if _h : n < 16 then [hexDigit n] else hexText (n / 16) ++ [hexDigit (n % 16)]
termination_by n
decreasing_by omega

theorem hexDigit?_hexDigit {n : Nat} (h : n < 16) : hexDigit? (hexDigit n) = some n := by
  have : ∀ n < 16, hexDigit? (hexDigit n) = some n := by decide
  exact this n h

end ChangeGate.Text
