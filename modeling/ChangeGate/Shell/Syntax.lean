/-!
The command language in which tasks are written: words with their quotes and expansions, and
commands built from them.
-/

namespace ChangeGate.Shell

inductive Dialect where
  | standard
  /-- The form with more expansions and its own messages. -/
  | extended
deriving DecidableEq, Repr

/-- What is done with the value of a parameter. -/
inductive Operator where
  | value
  | length
  | default (orEmpty : Bool)
  /-- A word is taken, and becomes the value, where there is none. -/
  | assign (orEmpty : Bool)
  | alternative (orEmpty : Bool)
  | required (orEmpty : Bool)
  | dropEnd (longest : Bool)
  | dropStart (longest : Bool)
  | slice
  /-- What a pattern matches is replaced, once or everywhere. -/
  | replace (everywhere : Bool)
  /-- The first letter, or every letter, is written large or small. -/
  | letters (upper everywhere : Bool)
deriving DecidableEq, Repr

/-- How a channel of a command is redirected. -/
inductive Redirection where
  | input
  | output
  | append
  | duplicate
  | text
deriving DecidableEq, Repr

mutual

inductive Part where
  | text (quoted : Bool) (text : String)
  | parameter (quoted : Bool) (name : String) (operator : Operator) (word : List Part)
  | substitution (quoted : Bool) (body : Command)
  | arithmetic (quoted : Bool) (expression : List Part)

inductive Command where
  | nothing
  /-- Assignments, or a name with arguments; the line it stands in comes first. -/
  | simple (line : Nat) (assignments : List (String × List Part)) (words : List (List Part))
  | redirected (body : Command) (channel : Nat) (mode : Redirection) (target : List Part)
  | sequence (first second : Command)
  | and (first second : Command)
  | or (first second : Command)
  | not (body : Command)
  /-- Two commands, the second reading what the first writes. -/
  | pipe (first second : Command)
  | background (body : Command)
  | subshell (body : Command)
  | choice (condition yes no : Command)
  /-- A command repeated while, or until, another succeeds. -/
  | loop (isUntil : Bool) (condition body : Command)
  | each (name : String) (words : Option (List (List Part))) (body : Command)
  /-- The first command one of whose patterns a word matches. -/
  | cases (word : List Part) (arms : List (List (List Part) × Command))
  | define (name : String) (body : Command)
  /-- An expression, which succeeds if it is not zero; the line it stands in comes first. -/
  | compute (line : Nat) (expression : List Part)
  /-- A condition between double brackets; the line it stands in comes first. -/
  | condition (line : Nat) (words : List (List Part))
  /-- A command repeated between expressions: before the first round, before each, and after each.
  -/
  | count (start test next : List Part) (body : Command)

end

instance : Inhabited Command := ⟨.nothing⟩

abbrev Word := List Part

end ChangeGate.Shell
