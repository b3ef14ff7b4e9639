import ChangeGate.Bits
import ChangeGate.Json.Basic
import ChangeGate.Text.Digits

/-!
Reading JSON numbers. A whole number within 64 bits keeps its value. Any other is a floating-point
number made from as many leading digits as 64 bits hold and a power of ten, in one rounding for the
digits, one for the power and one for their product or quotient.
-/

namespace ChangeGate.Json.Number

structure Numeral where
  negative : Bool
  whole : List Nat
  fraction : Option (List Nat)
  /-- The exponent, if there is one: whether it is negative, and its digits. -/
  exponent : Option (Bool × List Nat)

def maxWord : Nat := Bits.values 64 - 1

/-- The greatest exponent that is not simply beyond all bounds. -/
def maxExponent : Nat := Bits.values 31 - 1

/-- Appends digits to a number while it fits a word. Answers the number and the digits left over. -/
def appendDigits (n : Nat) : List Nat → Nat × List Nat
  | [] => (n, [])
  | d :: rest => if n * 10 + d ≤ maxWord then appendDigits (n * 10 + d) rest else (n, d :: rest)

def ofDigits (digits : List Nat) : Nat := digits.foldl (fun n d => n * 10 + d) 0

/-- The power of ten as the nearest floating-point number. -/
def powerOfTen (n : Nat) : Binary64 := .ofDecimal false 1 n

/-- Divides by a power of ten in strides of 308. -/
def shrink (x : Binary64) (n : Nat) : Nat → Binary64
  | 0 => .finite false 0 0
  | strides + 1 =>
    if n ≤ 308 then x.div (powerOfTen n)
    else if x.isZero then x
    else shrink (x.div (powerOfTen 308)) (n - 308) strides

/-- The floating-point number `significand · 10^exponent`, or `none` beyond all bounds. -/
def scale? (negative : Bool) (significand : Nat) (exponent : Int) : Option Binary64 :=
  let x := Binary64.ofDecimal false significand 0
  let result : Option Binary64 :=
    if 0 ≤ exponent then
      if exponent.toNat ≤ 308 then
        match x.mul (powerOfTen exponent.toNat) with
        | .infinite _ => none
        | y => some y
      else if x.isZero then some x
      else none
    else some (shrink x (-exponent).toNat 4)
  result.map fun y => if negative then y.neg else y

/-- The value of a written number, or `none` if it is beyond all bounds. -/
def ofNumeral? (numeral : Numeral) : Option Number :=
  let (significand, beyond) := appendDigits 0 numeral.whole
  match numeral.fraction, numeral.exponent, beyond with
  | none, none, [] =>
    if !numeral.negative then some (.int significand)
    else if significand = 0 ∨ Bits.values 63 < significand then
      some (.real (Binary64.ofDecimal true significand 0))
    else some (.int (-significand))
  | fraction, exponent, beyond =>
    let digits := fraction.getD []
    let (significand, rest) := appendDigits significand digits
    let start : Int := (beyond.length : Int) - ((digits.length - rest.length : Nat) : Int)
    match exponent with
    | none => (scale? numeral.negative significand start).map .real
    | some (below, ds) =>
      let e := ofDigits ds
      if maxExponent < e then
        if significand ≠ 0 ∧ !below then none else some (.real (.finite numeral.negative 0 0))
      else (scale? numeral.negative significand (if below then start - e else start + e)).map .real

/-- The decimal digits at the start of a text, and the rest. -/
def digitsOf : List Char → List Nat × List Char
  | [] => ([], [])
  | c :: rest =>
    match Text.decimalDigit? c with
    | some d => let (ds, r) := digitsOf rest; (d :: ds, r)
    | none => ([], c :: rest)

/-- The fraction at the start of a text: `none` if a point has no digit after it. -/
def fractionOf : List Char → Option (Option (List Nat) × List Char)
  | '.' :: rest =>
    match digitsOf rest with
    | ([], _) => none
    | (ds, r) => some (some ds, r)
  | text => some (none, text)

/-- The exponent at the start of a text: `none` if its mark has no digit after it. -/
def exponentOf : List Char → Option (Option (Bool × List Nat) × List Char)
  | c :: rest =>
    if c = 'e' ∨ c = 'E' then
      let (below, rest) : Bool × List Char := match rest with
        | '-' :: r => (true, r)
        | '+' :: r => (false, r)
        | r => (false, r)
      match digitsOf rest with
      | ([], _) => none
      | (ds, r) => some (some (below, ds), r)
    else some (none, c :: rest)
  | [] => some (none, [])

/-- The parts of the number at the start of a text, and the rest: `none` if no number is written
there. A number of several digits does not start with a zero. -/
def numeralOf? (text : List Char) : Option (Numeral × List Char) := do
  let (negative, text) : Bool × List Char := match text with
    | '-' :: rest => (true, rest)
    | rest => (false, rest)
  let (whole, text) := digitsOf text
  match whole with
  | [] => none
  | 0 :: _ :: _ => none
  | whole => do
    let (fraction, text) ← fractionOf text
    let (exponent, text) ← exponentOf text
    some (⟨negative, whole, fraction, exponent⟩, text)

end ChangeGate.Json.Number
