/-!
Patterns for file names and texts: a star for any text, a question mark for any character, and
brackets for one of a set.
-/

namespace ChangeGate.Shell.Glob

inductive Glyph where
  | char (c : Char)
  | anyChar
  | anyText
  | oneOf (negated : Bool) (ranges : List (Char × Char))
deriving DecidableEq, Repr

/-- Whether a character is in one of the ranges. -/
def inRanges (ranges : List (Char × Char)) (c : Char) : Bool :=
  ranges.any fun r => r.1 ≤ c && c ≤ r.2

/-- Whether a pattern matches a whole text. -/
def isMatch : List Glyph → List Char → Bool
  | [], cs => cs.isEmpty
  | .char _ :: _, [] => false
  | .char p :: ps, c :: cs => p == c && isMatch ps cs
  | .anyChar :: _, [] => false
  | .anyChar :: ps, _ :: cs => isMatch ps cs
  | .oneOf .. :: _, [] => false
  | .oneOf negated ranges :: ps, c :: cs => (inRanges ranges c != negated) && isMatch ps cs
  | .anyText :: ps, [] => isMatch ps []
  | .anyText :: ps, c :: cs => isMatch ps (c :: cs) || isMatch (.anyText :: ps) cs
termination_by ps cs => (ps.length + cs.length)

/-- The ranges between brackets, and what follows the closing one. The first character cannot
close. -/
def rangesOf (first : Bool) (done : List (Char × Char)) :
    List (Char × Bool) → Option (List (Char × Char) × List (Char × Bool))
  | [] => none
  | (c, quoted) :: ('-', false) :: (d, q) :: rest =>
    if c = ']' && !quoted && !first then some (done, ('-', false) :: (d, q) :: rest)
    else if d = ']' && !q then some ((c, c) :: ('-', '-') :: done, rest)
    else rangesOf false ((c, d) :: done) rest
  | (c, quoted) :: rest =>
    if c = ']' && !quoted && !first then some (done, rest)
    else rangesOf false ((c, c) :: done) rest

/-- The set of a bracket, and what follows it. -/
def setOf (cs : List (Char × Bool)) : Option (Glyph × List (Char × Bool)) :=
  match cs with
  | (c, false) :: rest =>
    if c = '!' || c = '^' then (rangesOf true [] rest).map fun (r, rest) => (.oneOf true r, rest)
    else (rangesOf true [] cs).map fun (r, rest) => (.oneOf false r, rest)
  | cs => (rangesOf true [] cs).map fun (r, rest) => (.oneOf false r, rest)

/-- The pattern of characters, each with whether it is quoted. A quoted character stands for
itself. -/
def ofChars (cs : List (Char × Bool)) : Nat → List Glyph
  | 0 => []
  | fuel + 1 =>
    match cs with
    | [] => []
    | (c, true) :: rest => .char c :: ofChars rest fuel
    | ('*', false) :: rest => .anyText :: ofChars rest fuel
    | ('?', false) :: rest => .anyChar :: ofChars rest fuel
    | ('[', false) :: rest =>
      match setOf rest with
      | some (glyph, rest) => glyph :: ofChars rest fuel
      | none => .char '[' :: ofChars rest fuel
    | (c, false) :: rest => .char c :: ofChars rest fuel

/-- What follows each place in a text, the end included. -/
def rests {α : Type} : List α → List (List α)
  | [] => [[]]
  | a :: rest => (a :: rest) :: rests rest

/-- Whether a pattern has something else than characters. -/
def isProper (glyphs : List Glyph) : Bool :=
  glyphs.any fun
    | .char _ => false
    | _ => true

/-- The text without the shortest or the longest start that a pattern matches. -/
def dropStart (longest : Bool) (glyphs : List Glyph) (text : List Char) : List Char :=
  let cuts := List.range (text.length + 1)
  let cuts := if longest then cuts.reverse else cuts
  match cuts.find? fun n => isMatch glyphs (text.take n) with
  | some n => text.drop n
  | none => text

/-- The text without the shortest or the longest end that a pattern matches. -/
def dropEnd (longest : Bool) (glyphs : List Glyph) (text : List Char) : List Char :=
  let cuts := List.range (text.length + 1)
  let cuts := if longest then cuts else cuts.reverse
  match cuts.find? fun n => isMatch glyphs (text.drop n) with
  | some n => text.take n
  | none => text

end ChangeGate.Shell.Glob
