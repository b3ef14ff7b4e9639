import ChangeGate.Text.Lines

/-!
Path patterns. A pattern without a star is the start of a path. A pattern with a star is matched
segment by segment, segments being the pieces between slashes: a star stands for any run of
characters within its segment, and a segment `**` for any number of segments, at least one if it is
the last. A starred pattern of a single segment is matched against the last segment of a path.
-/

namespace ChangeGate

inductive Pattern where
  | leading (text : String)
  | glob (text : String)
deriving DecidableEq, Repr

namespace Pattern

def ofText (text : String) : Pattern :=
  if text.toList.contains '*' then .glob text else .leading text

def text : Pattern → String
  | .leading t => t
  | .glob t => t

/-- Matches what is left of a segment and a name after a star. `rest` is the pattern after the last
star met, and `tail` the name from where the run of that star ends: when the match fails further on,
the run takes in one more character and the match is tried again from there. Earlier stars keep
the shortest runs that they were given. -/
def afterStar (rest tail pattern name : List Char) (within : pattern.length ≤ rest.length) : Bool :=
  match name with
  | [] => pattern.all (· == '*')
  | c :: name' =>
    match pattern with
    | [] =>
      match tail with
      | [] => false
      | _ :: tail' => afterStar rest tail' rest tail' (Nat.le_refl _)
    | p :: pattern' =>
      if p = '*' then afterStar pattern' (c :: name') pattern' (c :: name') (Nat.le_refl _)
      else if p = c then
        afterStar rest tail pattern' name' (Nat.le_trans (Nat.le_succ _) within)
      else
        match tail with
        | [] => false
        | _ :: tail' => afterStar rest tail' rest tail' (Nat.le_refl _)
termination_by (rest.length, tail.length, name.length)
decreasing_by
  · exact Prod.Lex.right _ (Prod.Lex.left _ _ (by simp))
  · exact Prod.Lex.left _ _ (by simp only [List.length_cons] at within; omega)
  · exact Prod.Lex.right _ (Prod.Lex.right _ (by simp))
  · exact Prod.Lex.right _ (Prod.Lex.left _ _ (by simp))

/-- Whether a segment of a pattern matches a name, each star standing for any run of characters. -/
def matchesName : List Char → List Char → Bool
  | [], [] => true
  | [], _ :: _ => false
  | p :: pattern, name =>
    if p = '*' then afterStar pattern name pattern name (Nat.le_refl _)
    else match name with
      | [] => false
      | c :: name => if p = c then matchesName pattern name else false

/-- What is left of a list after any number of its items, from all of it to nothing. -/
def suffixes {α : Type} : List α → List (List α)
  | [] => [[]]
  | a :: rest => (a :: rest) :: suffixes rest

/-- The segment that stands for any number of segments. -/
def anyDepth : List Char := ['*', '*']

/-- Whether the segments of a pattern match the segments of a path. -/
def matchesSegments : List (List Char) → List (List Char) → Bool
  | [], path => path.isEmpty
  | segment :: rest, path =>
    if segment = anyDepth then
      match rest with
      | [] => !path.isEmpty
      | next :: rest => (suffixes path).any (matchesSegments (next :: rest))
    else match path with
      | [] => false
      | name :: path => matchesName segment name && matchesSegments rest path

/-- Whether a starred pattern matches a path. -/
def matchesGlob (pattern path : List Char) : Bool :=
  let segments := Text.pieces '/' path
  if pattern.contains '/' then matchesSegments (Text.pieces '/' pattern) segments
  else match segments.getLast? with
    | some name => matchesName pattern name
    | none => false

def Matches (p : Pattern) (path : String) : Bool :=
  match p with
  | .leading t => t.toList.isPrefixOf path.toList
  | .glob t => matchesGlob t.toList path.toList

/-- The first of the patterns that matches a path. -/
def first? (patterns : List Pattern) (path : String) : Option Pattern :=
  patterns.find? (·.Matches path)

/-- The first path that some pattern matches, with the text of the first pattern that does. Without
patterns every path is relevant, and a star stands for the pattern. -/
def firstRelevant? (patterns : List Pattern) (paths : List String) : Option (String × String) :=
  paths.findSome? fun path =>
    if patterns.isEmpty then some (path, "*")
    else (first? patterns path).map fun p => (path, p.text)

end Pattern

end ChangeGate
