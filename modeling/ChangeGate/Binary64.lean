import ChangeGate.Bits

/-!
Binary floating-point numbers of 64 bits, as exact values. Arithmetic is done on exact ratios and
rounded once, to the nearest number with ties to an even mantissa. A finite number is written with
the fewest digits that read back as it.
-/

namespace ChangeGate

/-- A floating-point number. A finite one is `mantissa · 2^exponent` with its sign. -/
inductive Binary64 where
  | finite (negative : Bool) (mantissa : Nat) (exponent : Int)
  | infinite (negative : Bool)
  | nan
deriving DecidableEq, Repr

namespace Binary64

/-- The least exponent of a finite number. -/
def minExponent : Int := -1074

/-- The greatest exponent of a finite number. -/
def maxExponent : Int := 971

/-- The ratio `num / den` in units of `2^exponent`, as a numerator and a denominator. -/
def inUnits (num den : Nat) (exponent : Int) : Nat × Nat :=
  if 0 ≤ exponent then (num, den * Bits.values exponent.toNat)
  else (num * Bits.values (-exponent).toNat, den)

/-- The quotient to the nearest whole number, a half going to the even neighbour. -/
def divNearest (num den : Nat) : Nat :=
  let q := num / den
  let twice := 2 * (num % den)
  if twice < den ∨ (twice = den ∧ q % 2 = 0) then q else q + 1

/-- The exponent at which `num / den` has a mantissa of 53 bits, or the least one. -/
def unitExponent (num den : Nat) : Int :=
  let guess : Int := (num.log2 : Int) - (den.log2 : Int) - 53
  let (n, d) := inUnits num den guess
  let fit : Int := if n / d < Bits.values 53 then guess else guess + 1
  max fit minExponent

/-- The number nearest to `num / den`; an infinity beyond the greatest one. -/
def ofRatio (negative : Bool) (num den : Nat) : Binary64 :=
  if num = 0 then .finite negative 0 0
  else
    let e := unitExponent num den
    let (n, d) := inUnits num den e
    let m := divNearest n d
    let (m, e) := if m = Bits.values 53 then (Bits.values 52, e + 1) else (m, e)
    if maxExponent < e then .infinite negative else .finite negative m e

/-- The number nearest to `digits · 10^exponent`. -/
def ofDecimal (negative : Bool) (digits : Nat) (exponent : Int) : Binary64 :=
  if 0 ≤ exponent then ofRatio negative (digits * Nat.pow 10 exponent.toNat) 1
  else ofRatio negative digits (Nat.pow 10 (-exponent).toNat)

/-- The absolute value of a finite number as a ratio. -/
def ratio (mantissa : Nat) (exponent : Int) : Nat × Nat :=
  if 0 ≤ exponent then (mantissa * Bits.values exponent.toNat, 1)
  else (mantissa, Bits.values (-exponent).toNat)

/-- The product, rounded. Only for finite factors; any other is answered as not a number. -/
def mul : Binary64 → Binary64 → Binary64
  | .finite s m e, .finite t n f =>
    let (a, b) := ratio m e
    let (c, d) := ratio n f
    ofRatio (s != t) (a * c) (b * d)
  | _, _ => .nan

/-- The quotient, rounded. Only for a finite dividend and a finite divisor other than zero; any
other is answered as not a number. -/
def div : Binary64 → Binary64 → Binary64
  | .finite s m e, .finite t n f =>
    if n = 0 then .nan
    else
      let (a, b) := ratio m e
      let (c, d) := ratio n f
      ofRatio (s != t) (a * d) (b * c)
  | _, _ => .nan

def isZero : Binary64 → Bool
  | .finite _ m _ => m == 0
  | _ => false

def neg : Binary64 → Binary64
  | .finite s m e => .finite (!s) m e
  | .infinite s => .infinite (!s)
  | .nan => .nan

/-- Decimal digits with the place of the point: the value is `0.d₁d₂… · 10^point`. -/
structure Digits where
  /-- The digits, as one whole number that does not end in zero. -/
  number : Nat
  point : Int
deriving DecidableEq, Repr

def Digits.text (d : Digits) : List Char := (toString d.number).toList

/-- The number without the zeros at its end, and how many there were. -/
def stripZeros (n : Nat) : Nat × Nat :=
  if _h : n ≠ 0 ∧ n % 10 = 0 then
    let (m, k) := stripZeros (n / 10)
    (m, k + 1)
  else (n, 0)
termination_by n
decreasing_by omega

/-- The interval of ratios that round to a finite positive number: its ends as numerators over four
times the denominator of `ratio`, and whether the ends belong to it. -/
def roundingInterval (mantissa : Nat) (exponent : Int) : Nat × Nat × Nat × Bool :=
  let (a, b) := ratio mantissa exponent
  let unit := a / (max mantissa 1)
  let isLeast := mantissa = Bits.values 52 ∧ minExponent < exponent
  let lower := if isLeast then 4 * a - unit else 4 * a - 2 * unit
  (lower, 4 * a + 2 * unit, 4 * b, mantissa % 2 = 0)

/-- The decimal with `count` digits nearest to the number among those that round to it, if there
is one. -/
def digitsOfLength? (mantissa : Nat) (exponent : Int) (count : Nat) : Option Digits :=
  let (a, b) := ratio mantissa exponent
  let (low, high, den, closed) := roundingInterval mantissa exponent
  let guess : Int := ((toString (a / b)).length : Int)
  let smallest := fun (k : Nat) => Nat.pow 10 k * a < b
  -- The number of zeros after the point, for a number below one.
  let zeros := ((List.range 330).takeWhile fun k => smallest (k + 1)).length
  let point : Int := if a / b = 0 then -(zeros : Int) else guess
  let shift : Int := point - count
  let (n, d) : Nat × Nat :=
    if 0 ≤ shift then (a, b * Nat.pow 10 shift.toNat) else (a * Nat.pow 10 (-shift).toNat, b)
  let floor := n / d
  let inside := fun (c : Nat) =>
    let (x, y) : Nat × Nat :=
      if 0 ≤ shift then (c * Nat.pow 10 shift.toNat * den, 1)
      else (c * den, Nat.pow 10 (-shift).toNat)
    if closed then low * y ≤ x ∧ x ≤ high * y else low * y < x ∧ x < high * y
  let below := if inside floor then [floor] else []
  let above := if inside (floor + 1) then [floor + 1] else []
  let pick : Option Nat :=
    match below, above with
    | [l], [h] =>
      let twice := 2 * (n % d)
      some (if twice < d ∨ (twice = d ∧ l % 2 = 0) then l else h)
    | [l], _ => some l
    | _, [h] => some h
    | _, _ => none
  pick.map fun c =>
    let size := (toString c).length
    let (m, _) := stripZeros c
    ⟨m, point + ((size : Int) - count)⟩

/-- The fewest digits that read back as the number. -/
def shortest (mantissa : Nat) (exponent : Int) : Digits :=
  ((List.range 17).findSome? fun k => digitsOfLength? mantissa exponent (k + 1)).getD ⟨0, 1⟩

def zeros (n : Int) : String := String.ofList (List.replicate n.toNat '0')

/-- The digits in positional form, without an exponent and with no point where none is needed. -/
def Digits.positional (d : Digits) : String :=
  let text := d.text
  let size : Int := text.length
  if d.point ≤ 0 then "0." ++ zeros (-d.point) ++ String.ofList text
  else if size ≤ d.point then String.ofList text ++ zeros (d.point - size)
  else
    String.ofList (text.take d.point.toNat) ++ "." ++ String.ofList (text.drop d.point.toNat)

/-- The digits in positional form up to 10^16 and down to 10^-5, and with an exponent and its sign
beyond. A whole number ends in `.0`. -/
def Digits.compact (d : Digits) : String :=
  let text := d.text
  let size : Int := text.length
  if size ≤ d.point ∧ d.point ≤ 16 then d.positional ++ ".0"
  else if -5 < d.point ∧ d.point ≤ 16 then d.positional
  else
    let mantissa := match text with
      | [c] => String.ofList [c]
      | c :: rest => String.ofList [c] ++ "." ++ String.ofList rest
      | [] => "0"
    let exponent := d.point - 1
    mantissa ++ (if 0 ≤ exponent then "e+" else "e") ++ toString exponent

def signText (negative : Bool) : String := if negative then "-" else ""

/-- The number in positional form; a whole number ends in `.0`. -/
def toPositional : Binary64 → String
  | .finite s 0 _ => signText s ++ "0.0"
  | .finite s m e =>
    let text := (shortest m e).positional
    signText s ++ (if text.toList.contains '.' then text else text ++ ".0")
  | .infinite s => signText s ++ "inf"
  | .nan => "NaN"

/-- The number in compact form, with an exponent where it is very large or very small. -/
def toCompact : Binary64 → String
  | .finite s 0 _ => signText s ++ "0.0"
  | .finite s m e => signText s ++ (shortest m e).compact
  | .infinite s => signText s ++ "inf"
  | .nan => "NaN"

end Binary64

end ChangeGate
