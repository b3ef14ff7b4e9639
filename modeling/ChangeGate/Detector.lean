import ChangeGate.Decision
import ChangeGate.Store.Basic
import ChangeGate.Workflow

/-!
The detector of changes: it judges the changed paths of a run and records the decision in the store.
Where the paths cannot be listed because a revision cannot be resolved, changes are assumed.
-/

namespace ChangeGate

/-- What the detector of a workflow goes by. -/
structure Detector where
  patterns : List Pattern
  key : String := defaultDecisionKey
deriving DecidableEq, Repr

namespace Detector

/-- The detector that a workflow describes. -/
def ofWorkflow (w : ChangeDetection) : Detector := ⟨w.patterns.map Pattern.ofText, w.decisionKey⟩

variable (d : Detector)

/-- The decision on a list of changed paths. -/
def decide (paths : List String) : Decision := Decision.ofPaths d.patterns paths

/-- The decision on the outcome of listing the changed paths. -/
def evaluate : Except Error (List String) → Except Error Decision
  | .ok paths => .ok (d.decide paths)
  | .error e =>
    if e.isRevisionResolution then .ok (.noComparableParent e.message) else .error e

def detect {σ : Type} (store : Store σ) (s : σ) (diff : Except Error (List String)) :
    Except Error Decision × σ :=
  match d.evaluate diff with
  | .error e => (.error e, s)
  | .ok decision =>
    let (result, s) := store.putFlag s d.key decision.changesDetected
    (result.map fun _ => decision, s)

end Detector

end ChangeGate
