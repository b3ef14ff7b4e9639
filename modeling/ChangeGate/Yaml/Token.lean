/-!
The tokens of a YAML text. Keys and the structure that indentation stands for have tokens of their
own, so the tokens alone determine the document.
-/

namespace ChangeGate.Yaml

inductive Style where
  | plain
  | quoted
  | literal
  | folded
deriving DecidableEq, Repr

inductive Token where
  | version (major minor : Nat)
  | tagHandle (handle start : String)
  | documentStart
  | documentEnd
  | blockSequence
  | blockMapping
  /-- The end of an indented list or of indented named values. -/
  | blockEnd
  | openSequence
  | closeSequence
  | openMapping
  | closeMapping
  | item
  | comma
  | key
  | value
  | alias (name : String)
  | anchor (name : String)
  | tag (handle suffix : String)
  | scalar (text : String) (style : Style)
deriving DecidableEq, Repr

end ChangeGate.Yaml
