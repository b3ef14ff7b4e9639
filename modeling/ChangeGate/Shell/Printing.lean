import ChangeGate.Bits
import ChangeGate.Shell.Arithmetic
import ChangeGate.Text.Utf8

/-!
Printing: escapes in texts, and formats with directives that take their values from arguments. A
format is used again as long as arguments are left.
-/

namespace ChangeGate.Shell.Printing

def bytes (cs : List Char) : List UInt8 := Text.Utf8.encode cs

/-- The character that a letter after a backslash stands for. -/
def simpleEscape? (extended : Bool) (c : Char) : Option Char :=
  match c with
  | 'a' => some '\x07'
  | 'b' => some '\x08'
  | 'f' => some '\x0c'
  | 'n' => some '\n'
  | 'r' => some '\r'
  | 't' => some '\t'
  | 'v' => some '\x0b'
  | '\\' => some '\\'
  | 'e' => if extended then some '\x1b' else none
  | _ => none

/-- Whether a character is an octal digit. -/
def isOctal (c : Char) : Bool := '0' ≤ c && c ≤ '7'

/-- What stands after a backslash: the bytes it stands for and what follows. Octal digits start with
a zero where `zeroFirst` says so. -/
def escape (extended zeroFirst : Bool) (cs : List Char) : List UInt8 × List Char :=
  let octal (cs : List Char) : List UInt8 × List Char :=
    let digits := (cs.take 3).takeWhile isOctal
    ([UInt8.ofNat ((Text.ofDigits? 8 digits).getD 0)], cs.drop digits.length)
  match cs with
  | [] => ([0x5C], [])
  | c :: rest =>
    match simpleEscape? extended c with
    | some c => (bytes [c], rest)
    | none =>
      if c = '0' && zeroFirst then octal rest
      else if isOctal c && !zeroFirst then octal cs
      else if c = 'x' && extended then
        let digits := (rest.take 2).takeWhile fun c => (Text.hexDigit? c).isSome
        if digits.isEmpty then (bytes ['\\', 'x'], rest)
        else ([UInt8.ofNat ((Text.ofDigits? 16 digits).getD 0)], rest.drop digits.length)
      else (bytes ['\\', c], rest)

/-- The bytes of a text with escapes, and whether an escape has stopped it. -/
def unescaped (extended : Bool) (done : List UInt8) (cs : List Char) : Nat → List UInt8 × Bool
  | 0 => (done, false)
  | fuel + 1 =>
    match cs with
    | [] => (done, false)
    | '\\' :: 'c' :: _ => (done, true)
    | '\\' :: rest =>
      let (found, rest) := escape extended true rest
      unescaped extended (done ++ found) rest fuel
    | c :: rest => unescaped extended (done ++ bytes [c]) rest fuel

inductive Directive where
  | literal (bytes : List UInt8)
  /-- A value in a form: what stands before its width, its width, its precision, its letter. -/
  | value (flags : List Char) (width : Option Nat) (precision : Option Nat) (letter : Char)
deriving Repr

def leadingNumber (cs : List Char) : Option Nat × List Char :=
  (Text.ofDigits? 10 (cs.takeWhile Char.isDigit), cs.dropWhile Char.isDigit)

def directives (extended : Bool) (cs : List Char) : Nat → List Directive
  | 0 => []
  | fuel + 1 =>
    match cs with
    | [] => []
    | '\\' :: rest =>
      let (found, rest) := escape extended false rest
      .literal found :: directives extended rest fuel
    | '%' :: '%' :: rest => .literal [0x25] :: directives extended rest fuel
    | '%' :: rest =>
      let isFlag (c : Char) : Bool := "-+ 0#".toList.contains c
      let flags := rest.takeWhile isFlag
      let (width, rest) := leadingNumber (rest.dropWhile isFlag)
      let (precision, rest) := match rest with
        | '.' :: rest =>
          let (p, rest) := leadingNumber rest
          (some (p.getD 0), rest)
        | rest => (none, rest)
      match rest with
      | c :: rest => .value flags width precision c :: directives extended rest fuel
      | [] => [.literal [0x25]]
    | c :: rest => .literal (bytes [c]) :: directives extended rest fuel

def pad (flags : List Char) (width : Option Nat) (zero : Bool) (text : List UInt8) : List UInt8 :=
  let missing := width.getD 0 - text.length
  if flags.contains '-' then text ++ List.replicate missing 0x20
  else if zero && flags.contains '0' then
    match text with
    | 0x2D :: digits => 0x2D :: (List.replicate missing 0x30 ++ digits)
    | digits => List.replicate missing 0x30 ++ digits
  else List.replicate missing 0x20 ++ text

def numberOf? (text : String) : Option Int :=
  match text.toList with
  | [] => some 0
  | '-' :: digits => (Arithmetic.numberOf? digits).map (- ·)
  | '+' :: digits => Arithmetic.numberOf? digits
  | '\'' :: c :: _ => some c.toNat
  | '"' :: c :: _ => some c.toNat
  | digits => Arithmetic.numberOf? digits

def digitsIn (base n : Nat) : List Char := Nat.toDigits base n

/-- A value in the form of a directive: the bytes, whether it stops everything, and the argument if
it is none. -/
def formatted (extended : Bool) (flags : List Char) (width precision : Option Nat) (letter : Char)
    (argument : String) : List UInt8 × Bool × Option String :=
  let number := numberOf? argument
  let fault := if number.isNone then some argument else none
  let n := number.getD 0
  let unsigned := (n % Bits.values 64).toNat
  let filled (digits : List Char) : List Char :=
    List.replicate (precision.getD 1 - digits.length) '0' ++ digits
  let whole (cs : List Char) : List UInt8 × Bool × Option String :=
    (pad flags width precision.isNone (bytes cs), false, fault)
  match letter with
  | 's' =>
    let text := bytes argument.toList
    (pad flags width false (match precision with
      | some p => text.take p
      | none => text), false, none)
  | 'c' => (pad flags width false ((bytes argument.toList).take 1), false, none)
  | 'b' =>
    let (text, stops) := unescaped extended [] argument.toList (argument.length + 1)
    (pad flags width false text, stops, none)
  | 'x' => whole (filled (digitsIn 16 unsigned))
  | 'X' => whole ((filled (digitsIn 16 unsigned)).map Char.toUpper)
  | 'o' => whole (filled (digitsIn 8 unsigned))
  | 'u' => whole (filled (digitsIn 10 unsigned))
  | _ =>
    let sign := if n < 0 then ['-'] else if flags.contains '+' then ['+']
      else if flags.contains ' ' then [' '] else []
    whole (sign ++ filled (digitsIn 10 n.natAbs))

structure Printed where
  bytes : List UInt8 := []
  rest : List String := []
  took : Bool := false
  stopped : Bool := false
  faults : List String := []

def once (extended : Bool) (p : Printed) : List Directive → Printed
  | [] => p
  | .literal found :: rest =>
    if p.stopped then p else once extended { p with bytes := p.bytes ++ found } rest
  | .value flags width precision letter :: rest =>
    if p.stopped then p
    else
      let (found, stopped, fault) :=
        formatted extended flags width precision letter (p.rest.headD "")
      once extended
        { bytes := p.bytes ++ found, rest := p.rest.tail, took := true, stopped
          faults := p.faults ++ fault.toList } rest

/-- Uses a format until no arguments are left. -/
def all (extended : Bool) (format : List Directive) (p : Printed) : Nat → Printed
  | 0 => p
  | fuel + 1 =>
    let p := once extended { p with took := false } format
    if p.stopped || !p.took || p.rest.isEmpty then p else all extended format p fuel

def print (extended : Bool) (format : String) (arguments : List String) : Printed :=
  all extended (directives extended format.toList (format.length + 1)) { rest := arguments }
    (arguments.length + 1)

/-- The bytes of arguments in a line, with or without escapes and the end of the line. -/
def line (extended escapes ends : Bool) (arguments : List String) : List UInt8 :=
  let text := (" ".intercalate arguments).toList
  let (found, stopped) :=
    if escapes then unescaped extended [] text (text.length + 1) else (bytes text, false)
  if ends && !stopped then found ++ [0x0A] else found

/-- The options before the arguments of a line: whether there are escapes, whether the line ends,
and the arguments. -/
def lineOptions (extended escapes ends : Bool) : List String → Bool × Bool × List String
  | [] => (escapes, ends, [])
  | a :: rest =>
    if a = "-n" then lineOptions extended escapes false rest
    else if extended && a = "-e" then lineOptions extended true ends rest
    else if extended && a = "-E" then lineOptions extended false ends rest
    else if extended && (a = "-ne" || a = "-en") then lineOptions extended true false rest
    else (escapes, ends, a :: rest)

end ChangeGate.Shell.Printing
