import ChangeGate.Text.Digits
import ChangeGate.Yaml.Mark
import ChangeGate.Yaml.Token

/-!
Block scalars. The lines of a block are those that are indented at least as far as its first line
that is not blank, or as far as its header says. In a literal block line ends are kept; in a
folded one a line end between two lines that do not start with a blank becomes a space. The header
also says what becomes of the line ends after the last line.
-/

namespace ChangeGate.Yaml

/-- What becomes of the line ends after the last line of a block. -/
inductive Chomping where
  | strip
  | clip
  | keep
deriving DecidableEq, Repr

structure BlockHeader where
  chomping : Chomping := .clip
  /-- How much further than its surroundings the block is indented, if that is said. -/
  increment : Option Nat := none
deriving DecidableEq, Repr

/-- The meaning of a mark for the last line ends. -/
def chomping? (c : Char) : Option Chomping :=
  if c = '+' then some .keep else if c = '-' then some .strip else none

/-- Reads a digit of a header, which must not be zero. -/
def increment? : List Mark → Option (Option Nat × List Mark)
  | [] => some (none, [])
  | m :: rest =>
    match Text.decimalDigit? m.char with
    | none => some (none, m :: rest)
    | some 0 => none
    | some n => some (some n, rest)

/-- Reads the marks of a header, in either order. -/
def headerMarks (ms : List Mark) : Option (BlockHeader × List Mark) := do
  match ms with
  | [] => some ({}, [])
  | m :: rest =>
    match chomping? m.char with
    | some chomping =>
      let (increment, rest) ← increment? rest
      some ({ chomping, increment }, rest)
    | none =>
      let (increment, rest) ← increment? (m :: rest)
      match increment, rest with
      | some _, n :: rest' =>
        match chomping? n.char with
        | some chomping => some ({ chomping, increment }, rest')
        | none => some ({ increment }, rest)
      | _, _ => some ({ increment }, rest)

/-- Drops what is left of a line that holds only blanks and a comment, with the end of the line. -/
def endOfLine? (ms : List Mark) : Option (List Mark) :=
  let ms := ms.dropWhile Mark.isBlank
  let ms := if next '#' ms then ms.dropWhile (!·.isBreak) else ms
  match ms with
  | [] => some []
  | m :: rest => if m.isBreak then some rest else none

structure BlockState where
  literal : Bool
  least : Nat
  indent : Option Nat
  /-- Whether a line is being read, and not what stands before it. -/
  inLine : Bool := false
  /-- The greatest indentation of the blank lines met first. -/
  widest : Nat := 0
  lastBreak : List Char := []
  /-- The ends of the blank lines after it, the last first. -/
  breaks : List Char := []
  startsBlank : Bool := false
  text : List Char := []
deriving Repr

namespace BlockState

/-- Whether a column is still part of the indentation. -/
def inMargin (s : BlockState) (column : Nat) : Bool :=
  match s.indent with
  | none => true
  | some indent => column < indent

/-- The start of a line: the line ends before it are kept or folded. -/
def startLine (s : BlockState) (m : Mark) (indent : Nat) : BlockState :=
  let folds := !s.literal && s.lastBreak == ['\n'] && !s.startsBlank && !m.isBlank
  let joint := if folds then (if s.breaks.isEmpty then [' '] else []) else s.lastBreak
  { s with
    indent := some indent, inLine := true, lastBreak := [], breaks := [], startsBlank := m.isBlank
    text := m.char :: (s.breaks ++ (joint ++ s.text)) }

def finish (s : BlockState) (chomping : Chomping) : String :=
  let text := match chomping with
    | .strip => s.text
    | .clip => s.lastBreak ++ s.text
    | .keep => s.breaks ++ (s.lastBreak ++ s.text)
  String.ofList text.reverse

def read (s : BlockState) (chomping : Chomping) : List Mark → Option (String × List Mark)
  | [] => some (s.finish chomping, [])
  | m :: rest =>
    if s.inLine then
      if m.isBreak then read { s with inLine := false, lastBreak := [m.char] } chomping rest
      else read { s with text := m.char :: s.text } chomping rest
    else if s.inMargin m.column && m.char == ' ' then read s chomping rest
    else if s.inMargin m.column && m.char == '\t' then none
    else if m.isBreak then
      read { s with widest := max s.widest m.column, breaks := m.char :: s.breaks } chomping rest
    else
      let indent := s.indent.getD (max (max s.widest m.column) s.least)
      if m.column = indent then read (s.startLine m indent) chomping rest
      else some (s.finish chomping, m :: rest)

end BlockState

/-- Reads a block scalar after its first mark. `outer` is the indentation around it, or -1. -/
def blockScalar (literal : Bool) (outer : Int) (ms : List Mark) : Option (String × List Mark) := do
  let (header, ms) ← headerMarks ms
  let ms ← endOfLine? ms
  let least := max 1 (outer + 1).toNat
  let indent := header.increment.map (outer.toNat + ·)
  BlockState.read { literal, least, indent } header.chomping ms

end ChangeGate.Yaml
