import ChangeGate.Bits
import ChangeGate.Shell.Syntax
import ChangeGate.Table
import ChangeGate.Text.Digits

/-!
Expressions over whole numbers of 64 bits. Names stand for the values of variables, which an
expression can change; a name without a value stands for zero.
-/

namespace ChangeGate.Shell.Arithmetic

inductive Token where
  | number (value : Int)
  | name (name : String)
  | mark (text : String)
deriving DecidableEq, Repr

/-- The number within 64 bits that has the same last bits. -/
def wrap (n : Int) : Int := n.bmod (Bits.values 64)

inductive Fault where
  | division
  | noValue
  | leftOver
  | notANumber (text : String)
deriving DecidableEq, Repr

/-- The operators that only the extended form has. -/
def extendedMarks : List String := ["**", "++", "--", ","]

/-- The operators, longer ones before their beginnings. -/
def marks (dialect : Dialect) : List String :=
  let all := ["<<=", ">>=", "**", "<<", ">>", "<=", ">=", "==", "!=", "&&", "||", "+=", "-=", "*=",
    "/=", "%=", "&=", "|=", "^=", "++", "--", "+", "-", "*", "/", "%", "<", ">", "=", "!", "~", "&",
    "|", "^", "?", ":", "(", ")", ","]
  if dialect = .extended then all else all.filter (!extendedMarks.contains ·)

/-- The number that a text writes: with a mark for its base, or in decimal. -/
def numberOf? (text : List Char) : Option Int :=
  (match text with
    | '0' :: 'x' :: digits => Text.ofDigits? 16 digits
    | '0' :: 'X' :: digits => Text.ofDigits? 16 digits
    | '0' :: c :: digits => Text.ofDigits? 8 (c :: digits)
    | digits => Text.ofDigits? 10 digits).map fun n => wrap n

def tokens (dialect : Dialect) (cs : List Char) : Nat → Option (List Token)
  | 0 => none
  | fuel + 1 =>
    match cs with
    | [] => some []
    | c :: rest =>
      if c = ' ' || c = '\t' || c = '\n' then tokens dialect rest fuel
      else if c.isAlphanum || c = '_' then do
        let inWord (c : Char) : Bool := c.isAlphanum || c == '_'
        let word := cs.takeWhile inWord
        let token ←
          if c.isDigit then (numberOf? word).map .number else some (.name (String.ofList word))
        return token :: (← tokens dialect (cs.dropWhile inWord) fuel)
      else do
        let mark ← (marks dialect).find? fun m => m.toList.isPrefixOf cs
        return .mark mark :: (← tokens dialect (cs.drop mark.length) fuel)

def valueOf (vars : Table String) (name : String) : Except Fault Int :=
  match vars.get? name with
  | none => .ok 0
  | some text =>
    let found : Option Int := match text.toList with
      | [] => some 0
      | '-' :: digits => (numberOf? digits).map (- ·)
      | '+' :: digits => numberOf? digits
      | digits => numberOf? digits
    match found with
    | some n => .ok n
    | none => .error (.notANumber text)

/-- How tightly an operator between two values binds. -/
def tightness? (mark : String) : Option Nat :=
  [("||", 1), ("&&", 2), ("|", 3), ("^", 4), ("&", 5), ("==", 6), ("!=", 6), ("<", 7), ("<=", 7),
    (">", 7), (">=", 7), ("<<", 8), (">>", 8), ("+", 9), ("-", 9), ("*", 10), ("/", 10), ("%", 10),
    ("**", 11)].lookup mark

/-- One for truth and zero for its opposite. -/
def ofBool (b : Bool) : Int := if b then 1 else 0

/-- Applies an operation on words to two numbers. -/
def bitwise (f : Nat → Nat → Nat) (a b : Int) : Int :=
  wrap (f (a % Bits.values 64).toNat (b % Bits.values 64).toNat)

/-- The value of an operator between two values; division by zero has none. -/
def combine? (mark : String) (a b : Int) : Option Int :=
  match mark with
  | "||" => some (ofBool (a ≠ 0 || b ≠ 0))
  | "&&" => some (ofBool (a ≠ 0 && b ≠ 0))
  | "|" => some (bitwise (· ||| ·) a b)
  | "^" => some (bitwise (· ^^^ ·) a b)
  | "&" => some (bitwise (· &&& ·) a b)
  | "==" => some (ofBool (a = b))
  | "!=" => some (ofBool (a ≠ b))
  | "<" => some (ofBool (a < b))
  | "<=" => some (ofBool (a ≤ b))
  | ">" => some (ofBool (a > b))
  | ">=" => some (ofBool (a ≥ b))
  | "<<" => some (wrap (a * Bits.values (b % 64).toNat))
  | ">>" => some (a / Bits.values (b % 64).toNat)
  | "+" => some (wrap (a + b))
  | "-" => some (wrap (a - b))
  | "*" => some (wrap (a * b))
  | "/" => if b = 0 then none else some (wrap (Int.tdiv a b))
  | "%" => if b = 0 then none else some (Int.tmod a b)
  | "**" => if b < 0 || 4096 < b then none else some (wrap (Int.pow a b.toNat))
  | _ => none

/-- The value of an operator between two values. -/
def apply (mark : String) (a b : Int) : Except Fault Int :=
  match combine? mark a b with
  | some n => .ok n
  | none => .error .division

/-- A value, the variables after it, and the tokens left over. -/
abbrev Step := Except Fault (Int × Table String × List Token)

/-- Gives a variable a value, which is also the value of the whole. -/
def assign (vars : Table String) (name : String) (value : Int) (rest : List Token) : Step :=
  .ok (value, vars.insert name (toString value), rest)

/-- The operator in an assignment that combines it with one. -/
def combined? (mark : String) : Option String :=
  if ["+=", "-=", "*=", "/=", "%=", "<<=", ">>=", "&=", "|=", "^="].contains mark then
    some (mark.dropEnd 1).toString
  else none

mutual

/-- The value of an assignment, or of a choice. -/
def whole (vars : Table String) (ts : List Token) : Nat → Step
  | 0 => .error .noValue
  | fuel + 1 =>
    let choice : Step := do
      let (c, vars, rest) ← binary vars 0 ts fuel
      match rest with
      | .mark "?" :: rest =>
        let (a, afterYes, rest) ← whole vars rest fuel
        match rest with
        | .mark ":" :: rest =>
          let (b, afterNo, rest) ← whole vars rest fuel
          if c ≠ 0 then return (a, afterYes, rest) else return (b, afterNo, rest)
        | _ => throw .noValue
      | rest => return (c, vars, rest)
    match ts with
    | .name name :: .mark mark :: rest =>
      if mark = "=" then do
        let (a, vars, rest) ← whole vars rest fuel
        assign vars name a rest
      else match combined? mark with
        | some op => do
          let old ← valueOf vars name
          let (a, vars, rest) ← whole vars rest fuel
          assign vars name (← apply op old a) rest
        | none => choice
    | _ => choice

/-- The value of operators that bind at least as tightly as a number says. -/
def binary (vars : Table String) (least : Nat) (ts : List Token) : Nat → Step
  | 0 => .error .noValue
  | fuel + 1 => do
    let (a, vars, rest) ← unary vars ts fuel
    further vars least a rest fuel

def further (vars : Table String) (least : Nat) (a : Int) (ts : List Token) : Nat → Step
  | 0 => .error .noValue
  | fuel + 1 =>
    match ts with
    | .mark mark :: rest =>
      match tightness? mark with
      | none => .ok (a, vars, ts)
      | some tightness =>
        if tightness < least then .ok (a, vars, ts)
        else do
          let (b, after, rest) ← binary vars (tightness + 1) rest fuel
          let skips := (mark = "&&" && a = 0) || (mark = "||" && a ≠ 0)
          further (if skips then vars else after) least (← apply mark a b) rest fuel
    | _ => .ok (a, vars, ts)

/-- The value of a number, a name or a bracket, with the operators before and after it. -/
def unary (vars : Table String) (ts : List Token) : Nat → Step
  | 0 => .error .noValue
  | fuel + 1 =>
    match ts with
    | .number n :: rest => .ok (n, vars, rest)
    | .name name :: .mark "++" :: rest => do
      let a ← valueOf vars name
      return (a, vars.insert name (toString (wrap (a + 1))), rest)
    | .name name :: .mark "--" :: rest => do
      let a ← valueOf vars name
      return (a, vars.insert name (toString (wrap (a - 1))), rest)
    | .name name :: rest => do return (← valueOf vars name, vars, rest)
    | .mark "++" :: .name name :: rest => do
      assign vars name (wrap ((← valueOf vars name) + 1)) rest
    | .mark "--" :: .name name :: rest => do
      assign vars name (wrap ((← valueOf vars name) - 1)) rest
    | .mark "-" :: rest => do
      let (a, vars, rest) ← unary vars rest fuel
      return (wrap (-a), vars, rest)
    | .mark "+" :: rest => unary vars rest fuel
    | .mark "!" :: rest => do
      let (a, vars, rest) ← unary vars rest fuel
      return (ofBool (a = 0), vars, rest)
    | .mark "~" :: rest => do
      let (a, vars, rest) ← unary vars rest fuel
      return (-a - 1, vars, rest)
    | .mark "(" :: rest => do
      let (a, vars, rest) ← whole vars rest fuel
      match rest with
      | .mark ")" :: rest => return (a, vars, rest)
      | _ => throw .noValue
    | _ => .error .noValue

end

/-- The value of expressions with commas between them: that of the last one. -/
def sequence (vars : Table String) (ts : List Token) : Nat → Except Fault (Int × Table String)
  | 0 => .error .noValue
  | fuel + 1 => do
    let (a, vars, rest) ← whole vars ts (8 * ts.length + 8)
    match rest with
    | [] => return (a, vars)
    | .mark "," :: rest => sequence vars rest fuel
    | _ => throw .leftOver

/-- The value of an expression and the variables after it. -/
def evaluate (dialect : Dialect) (vars : Table String) (text : String) :
    Except Fault (Int × Table String) :=
  match tokens dialect text.toList (text.length + 1) with
  | none => .error .leftOver
  | some [] => .ok (0, vars)
  | some ts => sequence vars ts (ts.length + 1)

/-- The message of a fault in an expression. -/
def Fault.message (dialect : Dialect) (text : String) (fault : Fault) : String :=
  let around (words : String) : String :=
    "arithmetic expression: " ++ words ++ ": \"" ++ text ++ "\""
  let isDivision (c : Char) : Bool := c == '/' || c == '%'
  let token := (text.toList.reverse.takeWhile (!isDivision ·)).reverse.dropWhile (· = ' ')
  match fault, dialect with
  | .notANumber value, .standard => "Illegal number: " ++ value
  | .division, .standard => around "division by zero"
  | .noValue, .standard => around "expecting primary"
  | .leftOver, .standard => around "expecting EOF"
  | .division, .extended =>
    text ++ ": division by 0 (error token is \"" ++ String.ofList token ++ "\")"
  | .notANumber value, .extended => value ++ ": syntax error: operand expected"
  | .noValue, .extended => text ++ ": syntax error: operand expected"
  | .leftOver, .extended => text ++ ": syntax error in expression"

end ChangeGate.Shell.Arithmetic
