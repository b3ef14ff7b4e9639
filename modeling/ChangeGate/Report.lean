import ChangeGate.Decision
import ChangeGate.Ident
import ChangeGate.Outcome
import ChangeGate.Revision
import ChangeGate.Timestamp
import ChangeGate.Workflow

/-!
Reports: how a run and each of its jobs ended.
-/

namespace ChangeGate

structure JobReport where
  id : JobId
  index : Nat
  name : String
  parameters : Parameters
  alwaysRun : Bool
  gated : Bool
  outcome : Outcome
  exitCode : Option Int
  message : Option String
  startedAt : Option Timestamp
  completedAt : Timestamp
  duration : Option Nat
deriving DecidableEq, Repr

structure RunReport where
  id : RunId
  workflow : String
  /-- The revisions between which changes were looked for. -/
  revisions : Revisions
  decision : Option Decision
  detectorError : Option String
  jobs : List JobReport
  startedAt : Timestamp
  completedAt : Timestamp
  duration : Nat
deriving DecidableEq, Repr

namespace RunReport

def summary (r : RunReport) : Summary := Summary.ofOutcomes (r.jobs.map (·.outcome))

def hasFailures (r : RunReport) : Bool := r.jobs.any (·.outcome.isFailure)

def wasCancelled (r : RunReport) : Bool := r.jobs.any (·.outcome == .cancelled)

/-- The job of a name, the first if there are several. -/
def job? (r : RunReport) (name : String) : Option JobReport := r.jobs.find? (·.name == name)

end RunReport

end ChangeGate
