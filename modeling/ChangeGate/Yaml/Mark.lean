/-!
The characters of a YAML text with their places. A carriage return with a line feed after it, either
of them alone, and the next-line character all count as one line feed; the line and paragraph
separators end a line too and stand for themselves.
-/

namespace ChangeGate.Yaml

structure Mark where
  char : Char
  index : Nat
  line : Nat
  column : Nat
deriving DecidableEq, Repr

def nextLine : Char := '\u0085'

def lineSeparator : Char := '\u2028'

def paragraphSeparator : Char := '\u2029'

/-- The mark that tells the order of bytes; it may stand at the start of a line. -/
def byteOrderMark : Char := '\ufeff'

/-- Whether a character may stand in a text: no control characters but tab and line ends. -/
def isAllowed (c : Char) : Bool :=
  let n := c.toNat
  n == 0x9 || n == 0xA || n == 0xD || (0x20 ≤ n && n ≤ 0x7E) || n == 0x85 ||
    (0xA0 ≤ n && n ≤ 0xFFFD) || 0x10000 ≤ n

/-- The marks of a text whose first character has the given place. -/
def marksFrom (index line column : Nat) : List Char → List Mark
  | [] => []
  | '\r' :: '\n' :: rest => ⟨'\n', index, line, column⟩ :: marksFrom (index + 2) (line + 1) 0 rest
  | c :: rest =>
    if c = '\r' ∨ c = '\n' ∨ c = nextLine then
      ⟨'\n', index, line, column⟩ :: marksFrom (index + c.utf8Size) (line + 1) 0 rest
    else if c = lineSeparator ∨ c = paragraphSeparator then
      ⟨c, index, line, column⟩ :: marksFrom (index + c.utf8Size) (line + 1) 0 rest
    else ⟨c, index, line, column⟩ :: marksFrom (index + c.utf8Size) line (column + 1) rest

def marks (text : List Char) : List Mark := marksFrom 0 0 0 text

namespace Mark

def isBreak (m : Mark) : Bool :=
  m.char == '\n' || m.char == lineSeparator || m.char == paragraphSeparator

def isBlank (m : Mark) : Bool := m.char == ' ' || m.char == '\t'

/-- Whether this is a letter, a digit, an underscore or a hyphen. -/
def isWord (m : Mark) : Bool := m.char.isAlphanum || m.char == '_' || m.char == '-'

end Mark

/-- Whether a blank, a line end or the end of the text comes next. -/
def blankNext : List Mark → Bool
  | [] => true
  | m :: _ => m.isBlank || m.isBreak

def next (c : Char) : List Mark → Bool
  | [] => false
  | m :: _ => m.char == c

/-- Whether three of a character, and nothing else of their kind, come next at the start of a
line. -/
def tripleNext (c : Char) : List Mark → Bool
  | a :: b :: d :: rest =>
    a.column == 0 && a.char == c && b.char == c && d.char == c && blankNext rest
  | _ => false

/-- Whether a mark of the start or the end of a document comes next. -/
def documentMarkNext (ms : List Mark) : Bool := tripleNext '-' ms || tripleNext '.' ms

def textOf (ms : List Mark) : String := String.ofList (ms.map Mark.char)

end ChangeGate.Yaml
