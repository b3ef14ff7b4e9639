import ChangeGate.Text.Digits
import ChangeGate.Text.Utf8
import ChangeGate.Yaml.Mark
import ChangeGate.Yaml.Resolve

/-!
Writing a document that is a mapping of texts and other scalars. A text is written without quotes
if it then reads back as the same text and is nothing else; else in single quotes; in double
quotes if it has characters that must be escaped. A text of several lines is a literal block.
-/

namespace ChangeGate.Yaml

inductive Atom where
  | null
  | bool (value : Bool)
  | number (value : Nat)
  | text (value : String)
deriving DecidableEq, Repr

/-- Whether a character can be written without an escape. -/
def isPrintable (c : Char) : Bool :=
  let n := c.toNat
  n == 0x0A || (0x20 ≤ n && n ≤ 0x7E) || (0xA0 ≤ n && n ≤ 0xFFFD && n != 0xFEFF) || 0x10000 ≤ n

def isBreakChar (c : Char) : Bool :=
  c == '\r' || c == '\n' || c == nextLine || c == lineSeparator || c == paragraphSeparator

/-- Whether a character is a blank or ends a line. -/
def isGapChar (c : Char) : Bool := c == ' ' || c == '\t' || isBreakChar c

/-- Whether a text is empty or starts with a blank or a line end. -/
def startsWithGap : List Char → Bool
  | [] => true
  | c :: _ => isGapChar c

/-- Whether two characters of given kinds stand side by side. -/
def hasPair (first second : Char → Bool) : List Char → Bool
  | a :: b :: rest => (first a && second b) || hasPair first second (b :: rest)
  | _ => false

/-- Whether the first character would be taken for a mark. -/
def startsLikeMark : List Char → Bool
  | '-' :: '-' :: '-' :: _ => true
  | '.' :: '.' :: '.' :: _ => true
  | c :: rest =>
    "#,[]\x7b\x7d&*!|>'\"%@`".toList.contains c ||
      ((c == '?' || c == ':' || c == '-') && startsWithGap rest)
  | [] => false

/-- Whether a colon or a hash after the first character would be taken for a mark. -/
def containsMark (previous : Char) : List Char → Bool
  | [] => false
  | c :: rest =>
    (c == ':' && startsWithGap rest) || (c == '#' && isGapChar previous) || containsMark c rest

/-- Whether a text has characters that only an escape can write. -/
def hasSpecial (text : List Char) : Bool := !text.all isPrintable

/-- Whether a text has a space before a line end. -/
def hasSpaceBeforeBreak (text : List Char) : Bool := hasPair (· == ' ') isBreakChar text

/-- Whether a text has a space after a line end. -/
def hasSpaceAfterBreak (text : List Char) : Bool := hasPair isBreakChar (· == ' ') text

/-- Whether a text keeps its characters without quotes. -/
def fitsPlain (text : List Char) : Bool :=
  !hasSpecial text && !text.any isBreakChar &&
    text.head? != some ' ' && text.getLast? != some ' ' &&
    !startsLikeMark text && !containsMark (text.headD ' ') text.tail

/-- Whether a text keeps its characters in single quotes. -/
def fitsSingle (text : List Char) : Bool :=
  !hasSpecial text && !hasSpaceBeforeBreak text && !hasSpaceAfterBreak text

/-- Whether a text keeps its characters in a literal block. -/
def fitsLiteral (text : List Char) : Bool :=
  !hasSpecial text && !hasSpaceBeforeBreak text && text.getLast? != some ' '

/-- The words that some readers take for truth values. -/
def truthWords : List String :=
  ["y", "Y", "yes", "Yes", "YES", "n", "N", "no", "No", "NO", "true", "True", "TRUE",
    "false", "False", "FALSE", "on", "On", "ON", "off", "Off", "OFF"]

/-- Whether a text without quotes would mean something else. -/
def isAmbiguous (text : String) : Bool :=
  truthWords.contains text || hasLeadingZero text.toList || plainMeaning text != .string text

inductive Writing where
  | plain
  | single
  | double
  | literal
deriving DecidableEq, Repr

def writingOf (text : String) : Writing :=
  let chars := text.toList
  if chars.contains '\n' then (if fitsLiteral chars then .literal else .double)
  else if !isAmbiguous text && fitsPlain chars then .plain
  else if fitsSingle chars then .single
  else .double

/-- The blanks before a line inside a scalar. -/
def margin : List Char := [' ', ' ']

/-- The characters of a text in single quotes. -/
def singleBody (afterBreak : Bool) : List Char → List Char
  | [] => if afterBreak then margin else []
  | c :: rest =>
    if isBreakChar c then c :: singleBody true rest
    else
      (if afterBreak then margin else []) ++ (if c = '\'' then ['\'', '\''] else [c]) ++
        singleBody false rest

/-- The letter that stands for a character after a backslash. -/
def escapeLetter? (c : Char) : Option Char :=
  if c = '\x00' then some '0'
  else if c = '\x07' then some 'a'
  else if c = '\x08' then some 'b'
  else if c = '\t' then some 't'
  else if c = '\n' then some 'n'
  else if c = '\x0b' then some 'v'
  else if c = '\x0c' then some 'f'
  else if c = '\r' then some 'r'
  else if c = '\x1b' then some 'e'
  else if c = '"' then some '"'
  else if c = '\\' then some '\\'
  else if c = nextLine then some 'N'
  else if c = '\u00a0' then some '_'
  else if c = lineSeparator then some 'L'
  else if c = paragraphSeparator then some 'P'
  else none

def doubleChar (c : Char) : List Char :=
  if isPrintable c && !isBreakChar c && c != '"' && c != '\\' then [c]
  else match escapeLetter? c with
    | some letter => ['\\', letter]
    | none =>
      let n := c.toNat
      let digits (count : Nat) : List Char := (Text.hexDigits n count).map Char.toUpper
      if n ≤ 0xFF then '\\' :: 'x' :: digits 2
      else if n ≤ 0xFFFF then '\\' :: 'u' :: digits 4
      else '\\' :: 'U' :: digits 8

def literalBody (afterBreak : Bool) : List Char → List Char
  | [] => []
  | c :: rest =>
    if isBreakChar c then c :: literalBody true rest
    else (if afterBreak then margin else []) ++ c :: literalBody false rest

/-- The header of a literal block. It tells the indentation if the first line does not, and what
becomes of the line ends after the last line. -/
def literalHeader (text : List Char) : List Char :=
  let indent := if text.head?.any fun c => c == ' ' || isBreakChar c then ['2'] else []
  let ends := match text.reverse with
    | [] => ['-']
    | [c] => if isBreakChar c then ['+'] else ['-']
    | c :: d :: _ => if !isBreakChar c then ['-'] else if isBreakChar d then ['+'] else []
  '|' :: (indent ++ ends)

def writeText (text : String) : List Char :=
  let chars := text.toList
  match writingOf text with
  | .plain => chars
  | .single => '\'' :: (singleBody false chars ++ ['\''])
  | .double => '"' :: (chars.flatMap doubleChar ++ ['"'])
  | .literal => literalHeader chars ++ '\n' :: literalBody true chars

def Atom.write : Atom → List Char
  | .null => "null".toList
  | .bool b => (if b then "true" else "false").toList
  | .number n => (toString n).toList
  | .text s => writeText s

/-- The greatest number of bytes of a key before which no question mark is needed. -/
def simpleKeyBytes : Nat := 128

/-- Whether a key can stand before its colon on one line. -/
def isSimpleKey (key : String) : Bool :=
  !key.toList.any isBreakChar && key.utf8ByteSize ≤ simpleKeyBytes

def endLine (text : List Char) : List Char :=
  if text.getLast?.any isBreakChar then text else text ++ ['\n']

def writeEntry (key : String) (value : Atom) : List Char :=
  let start :=
    if isSimpleKey key then writeText key ++ [':']
    else endLine ('?' :: ' ' :: writeText key) ++ [':']
  endLine (start ++ ' ' :: value.write)

def writeMapping (entries : List (String × Atom)) : String :=
  if entries.isEmpty then "\x7b\x7d\n"
  else String.ofList (entries.flatMap fun e => writeEntry e.1 e.2)

end ChangeGate.Yaml
