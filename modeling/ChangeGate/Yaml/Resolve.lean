import ChangeGate.Bits
import ChangeGate.Shape
import ChangeGate.Text.Digits
import ChangeGate.Yaml.Node

/-!
What a scalar means. A scalar without quotes may be absent, a truth value, a whole number or a
floating-point number; any other is a text. A tag can demand one of these kinds. None of this
matters to a reader that wants a text: it takes the text as it is written.
-/

namespace ChangeGate.Yaml

def boolTag : String := "tag:yaml.org,2002:bool"

def intTag : String := "tag:yaml.org,2002:int"

def floatTag : String := "tag:yaml.org,2002:float"

def nullTag : String := "tag:yaml.org,2002:null"

/-- Whether a text is a word for an absent value. -/
def isNullWord (text : String) : Bool := ["~", "null", "Null", "NULL"].contains text

/-- The truth value that a text is a word for. -/
def truth? (text : String) : Option Bool :=
  if ["true", "True", "TRUE"].contains text then some true
  else if ["false", "False", "FALSE"].contains text then some false
  else none

/-- The base that a mark in front of digits stands for, and the digits. -/
def baseOf? : List Char → Option (Nat × List Char)
  | '0' :: 'x' :: digits => some (16, digits)
  | '0' :: 'o' :: digits => some (8, digits)
  | '0' :: 'b' :: digits => some (2, digits)
  | _ => none

/-- Whether a text is decimal digits with a zero in front, which is no number. -/
def hasLeadingZero (text : List Char) : Bool :=
  let digits := match text with
    | '-' :: rest => rest
    | '+' :: rest => rest
    | _ => text
  1 < digits.length && digits.head? == some '0' && digits.all Char.isDigit

/-- The whole number that a text without a sign writes. -/
def magnitude? (text : List Char) : Option Nat :=
  match baseOf? text with
  | some (base, digits) => Text.ofDigits? base digits
  | none => if hasLeadingZero text then none else Text.ofDigits? 10 text

/-- The number that a text without a minus sign writes. -/
def unsigned? (text : List Char) : Option Nat :=
  match text with
  | '+' :: rest => magnitude? rest
  | _ => magnitude? text

/-- The absolute value of the number that a text with a minus sign writes. -/
def negative? (text : List Char) : Option Nat :=
  match text with
  | '-' :: rest => magnitude? rest
  | _ => none

/-- The whole number of at most 128 bits that a text writes, with what it is to a reader. -/
def wholeNumber? (text : List Char) : Option Shape.Found :=
  match unsigned? text, negative? text with
  | some n, _ =>
    if n < Bits.values 64 then some (.integer n)
    else if n < Bits.values 128 then some (.wide n) else none
  | none, some n =>
    if n ≤ Bits.values 63 then some (.integer (-n))
    else if n ≤ Bits.values 127 then some (.wide (-n)) else none
  | none, none => none

/-- The exponent that a text writes after its mark, with a sign or without. -/
def exponent? (text : List Char) : Option Int :=
  match text with
  | '-' :: digits => (Text.ofDigits? 10 digits).map fun n => -(n : Int)
  | '+' :: digits => (Text.ofDigits? 10 digits).map Int.ofNat
  | digits => (Text.ofDigits? 10 digits).map Int.ofNat

/-- The value of digits with a power of ten, unless it is beyond all bounds. -/
def scaled? (negative : Bool) (digits : List Char) (exponent : Int) : Option Binary64 :=
  let digits := digits.dropWhile (· == '0')
  let size : Int := digits.length + exponent
  if digits.isEmpty || size < -400 then some (.finite negative 0 0)
  else if 400 < size then none
  else match Binary64.ofDecimal negative ((Text.ofDigits? 10 digits).getD 0) exponent with
    | .infinite _ => none
    | x => some x

/-- The finite number that a text without a sign writes in decimal. -/
def decimal? (negative : Bool) (text : List Char) : Option Binary64 := do
  let isMark (c : Char) : Bool := c == 'e' || c == 'E'
  let exponent ← match text.dropWhile (!isMark ·) with
    | [] => some 0
    | _ :: rest => exponent? rest
  let significand := text.takeWhile (!isMark ·)
  let whole := significand.takeWhile (· ≠ '.')
  let fraction := (significand.dropWhile (· ≠ '.')).drop 1
  let digits := whole ++ fraction
  if digits.isEmpty || !digits.all Char.isDigit then none
  else scaled? negative digits (exponent - fraction.length)

/-- The floating-point number that a text writes. -/
def real? (text : List Char) : Option Binary64 :=
  let isInfinity (text : List Char) : Bool := [".inf", ".Inf", ".INF"].contains (String.ofList text)
  let isNan : Bool := [".nan", ".NaN", ".NAN"].contains (String.ofList text)
  match text with
  | '+' :: rest => if isInfinity rest then some (.infinite false) else decimal? false rest
  | '-' :: rest => if isInfinity rest then some (.infinite true) else decimal? true rest
  | _ =>
    if isInfinity text then some (.infinite false)
    else if isNan then some .nan
    else decimal? false text

/-- What a text without quotes and without a tag is to a reader. -/
def plainMeaning (text : String) : Shape.Found :=
  if text.isEmpty || isNullWord text then .unit
  else match truth? text with
    | some b => .bool b
    | none =>
      match wholeNumber? text.toList with
      | some found => found
      | none =>
        if hasLeadingZero text.toList then .string text
        else ((real? text.toList).map Shape.Found.real).getD (.string text)

/-- What a scalar is to a reader. The error is the kind that its tag demands. -/
def meaning (tag : Option String) (text : String) (style : Style) : Except String Shape.Found :=
  let untagged : Shape.Found := if style = .plain then plainMeaning text else .string text
  match tag with
  | none => .ok untagged
  | some tag =>
    if tag = boolTag then
      match truth? text with
      | some b => .ok (.bool b)
      | none => .error "a boolean"
    else if tag = intTag then
      match wholeNumber? text.toList with
      | some found => .ok found
      | none => .error "an integer"
    else if tag = floatTag then
      match real? text.toList with
      | some x => .ok (.real x)
      | none => .error "a float"
    else if tag = nullTag then (if isNullWord text then .ok .unit else .error "null")
    else if "!".isPrefixOf tag then .ok untagged
    else .ok (.string text)

end ChangeGate.Yaml
