/-!
The gate: a job that waited for the decision goes on if there are relevant changes, and is skipped
otherwise.
-/

namespace ChangeGate

inductive Verdict where
  | proceed
  | skip
deriving DecidableEq, Repr

namespace Verdict

/-- The verdict on whether there are relevant changes. -/
def ofChanges (changesDetected : Bool) : Verdict :=
  if changesDetected then .proceed else .skip

def isSkip (v : Verdict) : Bool := v == .skip

def name : Verdict → String
  | .proceed => "proceed"
  | .skip => "skip"

def byName : List (String × Verdict) := [proceed, skip].map fun v => (v.name, v)

end Verdict

end ChangeGate
