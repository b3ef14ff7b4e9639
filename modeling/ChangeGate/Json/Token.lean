import ChangeGate.Json.Number
import ChangeGate.Text.Digits

/-!
The tokens of a JSON text. Where the text stops being made of tokens, a `fault` stands as the last
one. A text or number that is written correctly but has no value (half of a surrogate pair, a
number beyond all bounds) is a token of its own, since it may still be passed over.
-/

namespace ChangeGate.Json

inductive Token where
  | openArray
  | closeArray
  | openObject
  | closeObject
  | comma
  | colon
  /-- The word `null`. -/
  | null
  /-- The word `true` or `false`. -/
  | bool (value : Bool)
  | number (value : Number)
  | string (value : String)
  | unreadable
  | fault
deriving DecidableEq, Repr

namespace Token

/-- The characters that may stand between tokens. -/
def isSpace (c : Char) : Bool := c = ' ' || c = '\n' || c = '\t' || c = '\r'

/-- What a scanned text is: its characters and whether all its escapes have a value. -/
structure Quoted where
  text : List Char
  readable : Bool

/-- A character in front of a scanned text. -/
def Quoted.cons (c : Char) (q : Quoted) : Quoted := { q with text := c :: q.text }

def shortEscape? (c : Char) : Option Char :=
  match c with
  | '"' => some '"'
  | '\\' => some '\\'
  | '/' => some '/'
  | 'b' => some (Char.ofNat 8)
  | 'f' => some (Char.ofNat 12)
  | 'n' => some '\n'
  | 'r' => some '\r'
  | 't' => some '\t'
  | _ => none

/-- The code unit that four hexadecimal digits write. -/
def unit? (a b c d : Char) : Option Nat := Text.ofHexDigits? 0 [a, b, c, d]

/-- Whether a code unit opens a surrogate pair. -/
def isHigh (u : Nat) : Bool := 0xD800 ≤ u && u ≤ 0xDBFF

/-- Whether a code unit closes a surrogate pair. -/
def isLow (u : Nat) : Bool := 0xDC00 ≤ u && u ≤ 0xDFFF

/-- Scans a text after its opening quote: what it holds and what comes after the closing quote, or
`none` if it has a control character, an unknown escape or no end. `high` is an open half of a
surrogate pair, which only the other half may follow. -/
def quoted? (high : Option Nat) : List Char → Option (Quoted × List Char)
  | [] => none
  | '"' :: rest => some (⟨[], high.isNone⟩, rest)
  | '\\' :: 'u' :: a :: b :: c :: d :: rest =>
    match unit? a b c d with
    | none => none
    | some u =>
      if isHigh u then
        (quoted? (some u) rest).map fun (q, r) =>
          ({ q with readable := q.readable && high.isNone }, r)
      else if isLow u then
        match high with
        | some h =>
          (quoted? none rest).map fun (q, r) =>
            (q.cons (Char.ofNat (0x10000 + (h - 0xD800) * 0x400 + (u - 0xDC00))), r)
        | none => (quoted? none rest).map fun (q, r) => ({ q with readable := false }, r)
      else
        (quoted? none rest).map fun (q, r) =>
          ({ q.cons (Char.ofNat u) with readable := q.readable && high.isNone }, r)
  | '\\' :: c :: rest =>
    match shortEscape? c with
    | none => none
    | some e =>
      (quoted? none rest).map fun (q, r) =>
        ({ q.cons e with readable := q.readable && high.isNone }, r)
  | c :: rest =>
    if c.toNat < 32 then none
    else (quoted? none rest).map fun (q, r) =>
      ({ q.cons c with readable := q.readable && high.isNone }, r)

/-- The token at the start of a text that does not start with a space, and the rest. -/
def next (c : Char) (rest : List Char) : Token × List Char :=
  match c, rest with
  | '[', r => (.openArray, r)
  | ']', r => (.closeArray, r)
  | '{', r => (.openObject, r)
  | '}', r => (.closeObject, r)
  | ',', r => (.comma, r)
  | ':', r => (.colon, r)
  | 'n', 'u' :: 'l' :: 'l' :: r => (.null, r)
  | 't', 'r' :: 'u' :: 'e' :: r => (.bool true, r)
  | 'f', 'a' :: 'l' :: 's' :: 'e' :: r => (.bool false, r)
  | '"', r =>
    match quoted? none r with
    | none => (.fault, [])
    | some (q, r) => (if q.readable then .string (String.ofList q.text) else .unreadable, r)
  | c, r =>
    match Number.numeralOf? (c :: r) with
    | none => (.fault, [])
    | some (numeral, r) =>
      match Number.ofNumeral? numeral with
      | some n => (.number n, r)
      | none => (.unreadable, r)

/-- The tokens of a text, by at most `fuel` steps. Every token takes at least one character, so the
length of the text is enough. -/
def scanWithin : Nat → List Char → List Token
  | 0, _ => []
  | _, [] => []
  | fuel + 1, c :: rest =>
    if isSpace c then scanWithin fuel rest
    else
      match next c rest with
      | (.fault, _) => [.fault]
      | (token, rest) => token :: scanWithin fuel rest

def scan (text : List Char) : List Token := scanWithin text.length text

end Token

end ChangeGate.Json
