import ChangeGate.Bits
import ChangeGate.Text.Blank
import ChangeGate.Text.Digits

/-!
Instants in universal time: a day of the Gregorian calendar, a second of that day, and nanoseconds.
They are written as `2024-05-01T10:00:00.500Z` with no fraction or one of three, six or nine digits.
A text may carry any offset from universal time, which is taken off when it is read. A leap second
is the last second of its minute with a whole second more in the nanoseconds.
-/

namespace ChangeGate

def isLeapYear (year : Int) : Bool :=
  year % 4 == 0 && (year % 100 != 0 || year % 400 == 0)

def daysInMonth (year : Int) (month : Nat) : Nat :=
  if month = 2 then if isLeapYear year then 29 else 28
  else if month = 4 ∨ month = 6 ∨ month = 9 ∨ month = 11 then 30
  else 31

structure Date where
  year : Int
  month : Nat
  day : Nat
deriving DecidableEq, Repr

namespace Date

/-- The first and the last year that are told apart. -/
def minYear : Int := -262143

def maxYear : Int := 262142

def IsValid (d : Date) : Prop :=
  minYear ≤ d.year ∧ d.year ≤ maxYear ∧ 1 ≤ d.month ∧ d.month ≤ 12 ∧ 1 ≤ d.day ∧
    d.day ≤ daysInMonth d.year d.month

instance (d : Date) : Decidable d.IsValid :=
  inferInstanceAs (Decidable (_ ∧ _ ∧ _ ∧ _ ∧ _ ∧ _))

def next (d : Date) : Date :=
  if d.day < daysInMonth d.year d.month then { d with day := d.day + 1 }
  else if d.month < 12 then ⟨d.year, d.month + 1, 1⟩
  else ⟨d.year + 1, 1, 1⟩

def previous (d : Date) : Date :=
  if 1 < d.day then { d with day := d.day - 1 }
  else if 1 < d.month then ⟨d.year, d.month - 1, daysInMonth d.year (d.month - 1)⟩
  else ⟨d.year - 1, 12, 31⟩

end Date

structure Timestamp where
  date : Date
  second : Nat
  /-- The nanoseconds, one second more in a leap second. -/
  nano : Nat
deriving DecidableEq, Repr

namespace Timestamp

/-- The number of nanoseconds of a second. -/
def perSecond : Nat := 1000000000

/-- The instant so many nanoseconds after the start of 1970. -/
def ofNanoseconds (n : Nat) : Timestamp where
  date := Nat.repeat Date.next (n / (86400 * perSecond)) ⟨1970, 1, 1⟩
  second := n / perSecond % 86400
  nano := n % perSecond

inductive Fault where
  | outOfRange
  | impossible
  | invalid
  | tooShort
  | tooLong
deriving DecidableEq, Repr

def Fault.message : Fault → String
  | .outOfRange => "input is out of range"
  | .impossible => "no possible date and time matching input"
  | .invalid => "input contains invalid characters"
  | .tooShort => "premature end of input"
  | .tooLong => "trailing input"

/-- The greatest whole number of 63 bits. -/
def maxNumber : Nat := Bits.values 63 - 1

/-- Reads at most `most` further digits after the number `n`. -/
def moreDigits (n most : Nat) : List Char → Except Fault (Nat × List Char)
  | [] => .ok (n, [])
  | c :: rest =>
    match most, Text.decimalDigit? c with
    | most + 1, some d =>
      if maxNumber < n * 10 + d then .error .outOfRange else moreDigits (n * 10 + d) most rest
    | _, _ => .ok (n, c :: rest)

/-- Reads a number of one to `most` digits. -/
def number (most : Nat) : List Char → Except Fault (Nat × List Char)
  | [] => .error .tooShort
  | c :: rest =>
    match Text.decimalDigit? c with
    | none => .error .invalid
    | some d => moreDigits d (most - 1) rest

/-- Reads a number between two bounds, after blanks. -/
def part (low high : Nat) (text : List Char) : Except Fault (Nat × List Char) := do
  let (n, rest) ← number 2 (Text.trimStart text)
  if low ≤ n ∧ n ≤ high then return (n, rest) else throw .outOfRange

/-- Reads the year, after blanks: four digits at most, or any number of them after a sign. -/
def yearPart (text : List Char) : Except Fault (Int × List Char) := do
  let (n, rest) ← match Text.trimStart text with
    | '-' :: rest => do
      let (n, rest) ← number rest.length rest
      pure (-(n : Int), rest)
    | '+' :: rest => do
      let (n, rest) ← number rest.length rest
      pure ((n : Int), rest)
    | text => do
      let (n, rest) ← number 4 text
      pure ((n : Int), rest)
  if -(Bits.values 31 : Int) ≤ n ∧ n < Bits.values 31 then return (n, rest) else throw .outOfRange

def mark (c : Char) (text : List Char) : Except Fault (List Char) :=
  match Text.trimStart text with
  | [] => .error .tooShort
  | d :: rest => if d = c then .ok rest else .error .invalid

/-- Reads the fraction of a second as nanoseconds; digits after the ninth are dropped. -/
def fraction : List Char → Except Fault (Nat × List Char)
  | '.' :: text => do
    let (n, rest) ← number 9 text
    let width := text.length - rest.length
    return (n * Nat.pow 10 (9 - width), rest.dropWhile Char.isDigit)
  | text => .ok (0, text)

/-- Reads two digits. A text of a single byte is too short for them. -/
def twoDigits : List Char → Except Fault (Nat × Nat × List Char)
  | [] => .error .tooShort
  | [a] => .error (if a.utf8Size = 1 then .tooShort else .invalid)
  | a :: b :: rest =>
    match Text.decimalDigit? a, Text.decimalDigit? b with
    | some m, some n => .ok (m, n, rest)
    | _, _ => .error .invalid

/-- Reads the hours and minutes of an offset, in seconds. -/
def offsetDigits (text : List Char) : Except Fault (Nat × List Char) := do
  let (a, b, rest) ← twoDigits text
  let (c, d, rest) ← twoDigits (rest.dropWhile fun c => c == ':' || Text.isBlank c)
  if 6 ≤ c then throw .outOfRange
  return ((a * 10 + b) * 3600 + (c * 10 + d) * 60, rest)

/-- Reads the offset from universal time, in seconds. -/
def offset (text : List Char) : Except Fault (Int × List Char) :=
  let signed := fun (sign : Int) (rest : List Char) =>
    (offsetDigits rest).map fun (n, r) => (sign * n, r)
  if (text.take 3).map Char.toUpper = "UTC".toList then .ok (0, text.drop 3)
  else match text with
    | [] => .error .tooShort
    | 'Z' :: rest => .ok (0, rest)
    | 'z' :: rest => .ok (0, rest)
    | '+' :: rest => signed 1 rest
    | '-' :: rest => signed (-1) rest
    | '−' :: rest => signed (-1) rest
    | _ => .error .invalid

/-- The instant of a local day and second at an offset from universal time. -/
def ofLocal (date : Date) (second nano : Nat) (offset : Int) : Except Fault Timestamp :=
  let s : Int := second - offset
  let (date, s) : Date × Int :=
    if s < 0 then (date.previous, s + 86400)
    else if 86400 ≤ s then (date.next, s - 86400)
    else (date, s)
  if date.IsValid then .ok ⟨date, s.toNat, nano⟩ else .error .impossible

def ofText (text : String) : Except Fault Timestamp := do
  let (year, r) ← yearPart text.toList
  let r ← mark '-' r
  let (month, r) ← part 1 12 r
  let r ← mark '-' r
  let (day, r) ← part 1 31 r
  let r ← match r with
    | [] => throw .tooShort
    | 't' :: r => pure r
    | 'T' :: r => pure r
    | ' ' :: r => pure r
    | _ => throw .invalid
  let (hour, r) ← part 0 23 r
  let r ← mark ':' r
  let (minute, r) ← part 0 59 r
  let r ← mark ':' r
  let (second, r) ← part 0 60 r
  let (nano, r) ← fraction r
  let (shift, r) ← offset (Text.trimStart r)
  if !(Text.trimStart r).isEmpty then throw .tooLong
  let date : Date := ⟨year, month, day⟩
  if ¬ date.IsValid then throw .outOfRange
  if shift ≤ -86400 ∨ 86400 ≤ shift then throw .outOfRange
  let ofDay := hour * 3600 + minute * 60
  if second = 60 then ofLocal date (ofDay + 59) (nano + 1000000000) shift
  else ofLocal date (ofDay + second) nano shift

/-- A number in at least `width` digits. -/
def padded (width n : Nat) : List Char :=
  let digits := (toString n).toList
  List.replicate (width - digits.length) '0' ++ digits

/-- The text of a year: four digits, or a sign and at least five when it is out of their range. -/
def yearText (year : Int) : List Char :=
  if 0 ≤ year ∧ year ≤ 9999 then padded 4 year.toNat
  else if 0 ≤ year then '+' :: padded 4 year.toNat
  else '-' :: padded 4 (-year).toNat

/-- The text of a fraction of a second in no, three, six or nine digits. -/
def fractionText (nano : Nat) : List Char :=
  if nano = 0 then []
  else if nano % 1000000 = 0 then '.' :: padded 3 (nano / 1000000)
  else if nano % 1000 = 0 then '.' :: padded 6 (nano / 1000)
  else '.' :: padded 9 nano

def text (t : Timestamp) : String :=
  let leap := t.nano / 1000000000
  String.ofList <|
    yearText t.date.year ++ '-' :: padded 2 t.date.month ++ '-' :: padded 2 t.date.day ++
    'T' :: padded 2 (t.second / 3600) ++ ':' :: padded 2 (t.second / 60 % 60) ++
    ':' :: padded 2 (t.second % 60 + leap) ++ fractionText (t.nano % 1000000000) ++ ['Z']

end Timestamp

end ChangeGate
