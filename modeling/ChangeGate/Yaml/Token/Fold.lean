import ChangeGate.Yaml.Mark

/-!
Folding of line ends in scalars that are not blocks. Blanks around a line end are dropped; a single
line end becomes a space, and of several all but the first are kept.
-/

namespace ChangeGate.Yaml

/-- What has been met since the last character that is neither a blank nor a line end. -/
inductive Gap where
  | blanks (run : List Char)
  /-- Line ends: the first, unless it was escaped, and the others, the last first. -/
  | breaks (first : Option Char) (others : List Char)
deriving DecidableEq, Repr

namespace Gap

def nothing : Gap := .blanks []

def hasBreak : Gap → Bool
  | .blanks _ => false
  | .breaks .. => true

/-- A blank more: before a line end it is kept for the time being. -/
def addBlank (c : Char) : Gap → Gap
  | .blanks run => .blanks (c :: run)
  | .breaks first others => .breaks first others

def addBreak (c : Char) : Gap → Gap
  | .blanks _ => .breaks (some c) []
  | .breaks first others => .breaks first (c :: others)

/-- The text that a gap stands for once another character follows, the last first. -/
def folded : Gap → List Char
  | .blanks run => run
  | .breaks (some '\n') [] => [' ']
  | .breaks (some '\n') others => others
  | .breaks (some c) others => others ++ [c]
  | .breaks none others => others

end Gap

end ChangeGate.Yaml
