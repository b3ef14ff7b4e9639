import ChangeGate.Shell.Glob
import ChangeGate.Shell.State
import ChangeGate.Text.Digits

/-!
From the characters of an expanded word to its fields: a field ends at a separator that comes from
an expansion, and a field with a pattern stands for the files whose names match it.
-/

namespace ChangeGate.Shell

inductive Piece where
  /-- A character, whether it is quoted, and whether it comes from an expansion. -/
  | char (c : Char) (quoted splits : Bool)
  /-- A quoted text, which is a field even if it is empty. -/
  | mark
  | boundary
deriving DecidableEq, Repr

/-- A field: its characters, each with whether it is quoted. -/
abbrev Field := List (Char × Bool)

def piecesOf (quoted splits : Bool) (text : String) : List Piece :=
  text.toList.map fun c => .char c quoted splits

def textOfPieces (pieces : List Piece) : String :=
  String.ofList (pieces.filterMap fun
    | .char c _ _ => some c
    | .mark => none
    | .boundary => some ' ')

def patternOf (pieces : List Piece) : List Glob.Glyph :=
  let cs := pieces.filterMap fun
    | .char c quoted _ => some (c, quoted)
    | _ => none
  Glob.ofChars cs (cs.length + 1)

/-- Cuts pieces into fields. `current` is the field that has begun, its last character first. -/
def cutFields (separators : List Char) (current : Option Field) : List Piece → List Field
  | [] => (current.map List.reverse).toList
  | .mark :: rest => cutFields separators (some (current.getD [])) rest
  | .boundary :: rest => (current.map List.reverse).toList ++ cutFields separators none rest
  | .char c quoted splits :: rest =>
    if splits && !quoted && separators.contains c then
      if c = ' ' || c = '\t' || c = '\n' then
        (current.map List.reverse).toList ++ cutFields separators none rest
      else (current.getD []).reverse :: cutFields separators none rest
    else cutFields separators (some ((c, quoted) :: current.getD [])) rest

def Field.text (f : Field) : String := String.ofList (f.map Prod.fst)

/-- The files whose names a field matches, or the field itself if there are none. -/
def Field.matchingNames (s : State) (f : Field) : List String :=
  let isSlash (e : Char × Bool) : Bool := e.1 == '/'
  let last := (f.reverse.takeWhile (!isSlash ·)).reverse
  let before := f.take (f.length - last.length)
  let glyphs := Glob.ofChars last (last.length + 1)
  if Glob.isProper glyphs then
    let top := FileTree.names s.directory (Field.text before)
    let found := (s.files.list top).filter fun n =>
      Glob.isMatch glyphs n.toList && (!n.startsWith "." || last.head?.any (·.1 == '.'))
    if found.isEmpty then [Field.text f] else found.map (Field.text before ++ ·)
  else [Field.text f]

def State.separators (s : State) : List Char := ((s.valueOf? "IFS").getD " \t\n").toList

def fieldsOf (s : State) (pieces : List Piece) : List String :=
  (cutFields s.separators none pieces).flatMap (Field.matchingNames s)

/-- The words that a word with alternatives in braces stands for. -/
def alternatives (word : Word) : Nat → List Word
  | 0 => [word]
  | fuel + 1 =>
    let isText (t : String) : Part → Bool
      | .text false u => t == u
      | _ => false
    let before := word.takeWhile (!isText "\x7b" ·)
    let inner := ((word.dropWhile (!isText "\x7b" ·)).drop 1).takeWhile (!isText "\x7d" ·)
    let after := (((word.dropWhile (!isText "\x7b" ·)).drop 1).dropWhile (!isText "\x7d" ·)).drop 1
    let closed := (word.drop (before.length + 1 + inner.length)).head?.any (isText "\x7d")
    let text := String.join (inner.map fun
      | .text false t => t
      | _ => "\n")
    let rebuilt (middle : Word) : List Word :=
      (alternatives after fuel).map fun rest => before ++ middle ++ rest
    if !closed then [word]
    else match (Text.pieces '.' text.toList), inner.any (isText ",") with
      | [a, [], b], false =>
        match Text.ofDigits? 10 a, Text.ofDigits? 10 b with
        | some m, some n =>
          let numbers := if m ≤ n then (List.range (n + 1 - m)).map (m + ·)
            else ((List.range (m + 1 - n)).map (n + ·)).reverse
          numbers.flatMap fun n => rebuilt [.text false (toString n)]
        | _, _ => [word]
      | _, true =>
        let rec choices (current : Word) : Word → List Word
          | [] => [current.reverse]
          | p :: rest =>
            if isText "," p then current.reverse :: choices [] rest else choices (p :: current) rest
        (choices [] inner).flatMap rebuilt
      | _, false => [word]

end ChangeGate.Shell
