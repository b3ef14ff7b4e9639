import ChangeGate.Shell.Arithmetic
import ChangeGate.Shell.LinePattern
import ChangeGate.Shell.State

/-!
Conditions on texts, numbers and files, given as a list of arguments.
-/

namespace ChangeGate.Shell.Testing

/-- Whether an operator with one operand holds; `none` if it is no operator. -/
def holdsOf? (s : State) (operator operand : String) : Option Bool :=
  match operator with
  | "-n" => some (!operand.isEmpty)
  | "-z" => some operand.isEmpty
  | "-e" => some (s.files.exists? s.directory operand)
  | "-a" => some (s.files.exists? s.directory operand)
  | "-r" => some (s.files.exists? s.directory operand)
  | "-w" => some (s.files.exists? s.directory operand)
  | "-x" => some (s.files.isDirectory s.directory operand)
  | "-d" => some (s.files.isDirectory s.directory operand)
  | "-f" => some (s.files.read s.directory operand).isOk
  | "-s" => some (match s.files.read s.directory operand with
    | .ok content => !content.isEmpty
    | .error _ => s.files.isDirectory s.directory operand)
  | "-L" => some false
  | "-h" => some false
  | "-t" => some false
  | "-p" => some false
  | _ => none

def numberOf? (text : String) : Option Int :=
  match text.toList with
  | '-' :: digits => (Text.ofDigits? 10 digits).map fun n => -(n : Int)
  | '+' :: digits => (Text.ofDigits? 10 digits).map Int.ofNat
  | digits => (Text.ofDigits? 10 digits).map Int.ofNat

/-- The comparison of numbers that an operator stands for. -/
def comparison? (operator : String) : Option (Int → Int → Bool) :=
  match operator with
  | "-eq" => some (· == ·)
  | "-ne" => some (· != ·)
  | "-lt" => some fun a b => decide (a < b)
  | "-le" => some fun a b => decide (a ≤ b)
  | "-gt" => some fun a b => decide (a > b)
  | "-ge" => some fun a b => decide (a ≥ b)
  | _ => none

/-- The comparison of texts that an operator stands for. -/
def ordering? (operator : String) : Option (String → String → Bool) :=
  match operator with
  | "=" => some (· == ·)
  | "==" => some (· == ·)
  | "!=" => some (· != ·)
  | "<" => some fun a b => decide (a < b)
  | ">" => some fun a b => decide (b < a)
  | _ => none

inductive Fault where
  | notANumber (text : String)
  | malformed (text : String)
deriving DecidableEq, Repr

/-- Whether an operator between two operands holds; `none` if it is no operator. -/
def holdsBetween? (a operator b : String) : Option (Except Fault Bool) :=
  match comparison? operator, ordering? operator with
  | some compare, _ => some (match numberOf? a, numberOf? b with
    | some m, some n => .ok (compare m n)
    | none, _ => .error (.notANumber a)
    | _, none => .error (.notANumber b))
  | none, some compare => some (.ok (compare a b))
  | none, none => none

mutual

/-- Whether conditions joined by "or" hold, with the arguments left over. -/
def anyOf (s : State) (arguments : List String) : Nat → Except Fault (Bool × List String)
  | 0 => .error (.malformed "")
  | fuel + 1 => do
    let (a, rest) ← allOf s arguments fuel
    match rest with
    | "-o" :: rest =>
      let (b, rest) ← anyOf s rest fuel
      return (a || b, rest)
    | rest => return (a, rest)

/-- Whether conditions joined by "and" hold, with the arguments left over. -/
def allOf (s : State) (arguments : List String) : Nat → Except Fault (Bool × List String)
  | 0 => .error (.malformed "")
  | fuel + 1 => do
    let (a, rest) ← single s arguments fuel
    match rest with
    | "-a" :: rest =>
      let (b, rest) ← allOf s rest fuel
      return (a && b, rest)
    | rest => return (a, rest)

/-- Whether a single condition holds, with the arguments left over. -/
def single (s : State) (arguments : List String) : Nat → Except Fault (Bool × List String)
  | 0 => .error (.malformed "")
  | fuel + 1 =>
    match arguments with
    | [] => .ok (false, [])
    | [a] => .ok (!a.isEmpty, [])
    | a :: operator :: b :: rest =>
      match holdsBetween? a operator b with
      | some result => result.map (·, rest)
      | none => negatedOr s a (operator :: b :: rest) fuel
    | [a, b] => negatedOr s a [b] fuel

/-- Whether a condition that starts with an operator holds, with the arguments left over. -/
def negatedOr (s : State) (a : String) (rest : List String) :
    Nat → Except Fault (Bool × List String)
  | 0 => .error (.malformed "")
  | fuel + 1 =>
    if a = "!" then (single s rest fuel).map fun (b, rest) => (!b, rest)
    else if a = "(" then do
      let (b, rest) ← anyOf s rest fuel
      match rest with
      | ")" :: rest => return (b, rest)
      | _ => throw (.malformed ")")
    else match rest with
      | b :: rest' =>
        match holdsOf? s a b with
        | some result => .ok (result, rest')
        | none => .ok (!a.isEmpty, rest)
      | [] => .ok (!a.isEmpty, rest)

end

def evaluate (s : State) (arguments : List String) : Except Fault Bool := do
  let (b, rest) ← anyOf s arguments (4 * arguments.length + 4)
  match rest with
  | [] => return b
  | a :: _ => throw (.malformed a)

/-! ### Conditions between double brackets -/

structure Operand where
  text : String
  glyphs : List Glob.Glyph
  plain : Bool

def Operand.is (o : Operand) (operator : String) : Bool := o.plain && o.text == operator

/-- Whether an operator between two words holds; `none` if it is no operator. -/
def holdsInBrackets? (a operator b : Operand) : Option (Except Fault Bool) :=
  if !operator.plain then none
  else if operator.text = "==" || operator.text = "=" then
    some (.ok (Glob.isMatch b.glyphs a.text.toList))
  else if operator.text = "!=" then some (.ok (!Glob.isMatch b.glyphs a.text.toList))
  else if operator.text = "=~" then
    some (.ok ((LinePattern.ofText true b.text).isMatch a.text.toList))
  else holdsBetween? a.text operator.text b.text

mutual

/-- Whether conditions joined by bars hold, with the words left over. -/
def someHold (s : State) (words : List Operand) : Nat → Except Fault (Bool × List Operand)
  | 0 => .error (.malformed "")
  | fuel + 1 => do
    let (a, rest) ← allHold s words fuel
    match rest with
    | o :: rest' =>
      if o.is "||" then
        let (b, rest) ← someHold s rest' fuel
        return (a || b, rest)
      else return (a, rest)
    | [] => return (a, [])

/-- Whether conditions joined by ampersands hold, with the words left over. -/
def allHold (s : State) (words : List Operand) : Nat → Except Fault (Bool × List Operand)
  | 0 => .error (.malformed "")
  | fuel + 1 => do
    let (a, rest) ← oneHolds s words fuel
    match rest with
    | o :: rest' =>
      if o.is "&&" then
        let (b, rest) ← allHold s rest' fuel
        return (a && b, rest)
      else return (a, rest)
    | [] => return (a, [])

/-- Whether a single condition holds, with the words left over. -/
def oneHolds (s : State) (words : List Operand) : Nat → Except Fault (Bool × List Operand)
  | 0 => .error (.malformed "")
  | fuel + 1 =>
    match words with
    | [] => .error (.malformed "")
    | a :: rest =>
      if a.is "!" then (oneHolds s rest fuel).map fun (b, rest) => (!b, rest)
      else if a.is "(" then do
        let (b, rest) ← someHold s rest fuel
        match rest with
        | _ :: rest => return (b, rest)
        | [] => throw (.malformed ")")
      else
        let binary : Option (Except Fault (Bool × List Operand)) := match rest with
          | operator :: b :: rest' =>
            (holdsInBrackets? a operator b).map fun result => result.map (·, rest')
          | _ => none
        let unary : Option (Except Fault (Bool × List Operand)) := match rest with
          | b :: rest' =>
            if a.plain then (holdsOf? s a.text b.text).map fun result => .ok (result, rest')
            else none
          | [] => none
        (binary.or unary).getD (.ok (!a.text.isEmpty, rest))

end

/-- Whether a condition between double brackets holds. -/
def evaluateInBrackets (s : State) (words : List Operand) : Except Fault Bool :=
  (someHold s words (4 * words.length + 4)).map Prod.fst

end ChangeGate.Shell.Testing
