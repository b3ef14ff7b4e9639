import ChangeGate.Shell.Glob

/-!
Patterns for lines: characters, a point for any of them, sets in brackets, each perhaps repeated,
and marks for the start and the end of the line.
-/

namespace ChangeGate.Shell.LinePattern

open Glob (Glyph)

/-- How often a part of a pattern may occur. -/
inductive Repeat where
  | once
  | any
  | some
  | optional
deriving DecidableEq, Repr

/-- A pattern: whether it holds at the start only, its parts, and whether it reaches to the end. -/
structure Pattern where
  fromStart : Bool
  parts : List (Glyph × Repeat)
  toEnd : Bool
deriving DecidableEq, Repr

/-- Whether a character is one that a glyph stands for. -/
def accepts : Glyph → Char → Bool
  | .char p, c => p == c
  | .anyChar, _ => true
  | .anyText, _ => true
  | .oneOf negated ranges, c => Glob.inRanges ranges c != negated

/-- Whether parts match at the start of a text. -/
def matchesHere (toEnd : Bool) : List (Glyph × Repeat) → List Char → Nat → Bool
  | _, _, 0 => false
  | [], cs, _ => !toEnd || cs.isEmpty
  | (g, r) :: parts, cs, fuel + 1 =>
    let stepped : Bool := match cs with
      | [] => false
      | c :: rest => accepts g c && (match r with
        | .once => matchesHere toEnd parts rest fuel
        | .optional => matchesHere toEnd parts rest fuel
        | .any => matchesHere toEnd ((g, .any) :: parts) rest fuel
        | .some => matchesHere toEnd ((g, .any) :: parts) rest fuel)
    stepped || (match r with
      | .any => matchesHere toEnd parts cs fuel
      | .optional => matchesHere toEnd parts cs fuel
      | _ => false)

/-- Whether a pattern matches somewhere in a text. -/
def Pattern.isMatch (p : Pattern) (cs : List Char) : Bool :=
  let here (cs : List Char) : Bool :=
    matchesHere p.toEnd p.parts cs (cs.length + 2 * p.parts.length + 2)
  if p.fromStart then here cs else (Glob.rests cs).any here

/-- The parts of a pattern, and whether it reaches to the end. `extended` says whether plus signs
and question marks repeat. -/
def partsOf (extended : Bool) (cs : List Char) : Nat → List (Glyph × Repeat) × Bool
  | 0 => ([], false)
  | fuel + 1 =>
    let repeated (g : Glyph) (rest : List Char) : List (Glyph × Repeat) × Bool :=
      let (r, rest) : Repeat × List Char := match rest with
        | '*' :: rest => (.any, rest)
        | '+' :: rest' => if extended then (.some, rest') else (.once, rest)
        | '?' :: rest' => if extended then (.optional, rest') else (.once, rest)
        | _ => (.once, rest)
      let (parts, toEnd) := partsOf extended rest fuel
      ((g, r) :: parts, toEnd)
    match cs with
    | [] => ([], false)
    | ['$'] => ([], true)
    | '\\' :: c :: rest => repeated (.char c) rest
    | '.' :: rest => repeated .anyChar rest
    | '[' :: rest =>
      match Glob.setOf (rest.map (·, false)) with
      | some (g, rest) => repeated g (rest.map Prod.fst)
      | none => repeated (.char '[') rest
    | c :: rest => repeated (.char c) rest

def ofText (extended : Bool) (text : String) : Pattern :=
  match text.toList with
  | '^' :: cs =>
    let (parts, toEnd) := partsOf extended cs (cs.length + 1)
    ⟨true, parts, toEnd⟩
  | cs =>
    let (parts, toEnd) := partsOf extended cs (cs.length + 1)
    ⟨false, parts, toEnd⟩

end ChangeGate.Shell.LinePattern
