import ChangeGate.Pattern

/-!
Decisions: whether a change is relevant, and why. Changed paths are judged against patterns; where
there is no older revision to compare with, changes are assumed.
-/

namespace ChangeGate

inductive Decision.Reason where
  | matched (path pattern : String)
  | noMatch (considered : Nat)
  | noComparableParent (detail : String)
deriving DecidableEq, Repr

/-- Whether there are relevant changes, and why. -/
structure Decision where
  changesDetected : Bool
  reason : Decision.Reason
deriving DecidableEq, Repr

namespace Decision

def matched (path pattern : String) : Decision := ⟨true, .matched path pattern⟩

def noMatch (considered : Nat) : Decision := ⟨false, .noMatch considered⟩

/-- There is nothing to compare with, so changes are assumed. -/
def noComparableParent (detail : String) : Decision := ⟨true, .noComparableParent detail⟩

/-- The decision on a list of changed paths. -/
def ofPaths (patterns : List Pattern) (paths : List String) : Decision :=
  match Pattern.firstRelevant? patterns paths with
  | some (path, pattern) => matched path pattern
  | none => noMatch paths.length

def text (d : Decision) : String :=
  match d.reason with
  | .matched path pattern => "changes detected (" ++ path ++ " matches " ++ pattern ++ ")"
  | .noMatch n => "no relevant changes (" ++ toString n ++ " paths considered)"
  | .noComparableParent detail => "changes assumed (no comparable parent: " ++ detail ++ ")"

end Decision

end ChangeGate
