import ChangeGate.Decision
import ChangeGate.Ident
import ChangeGate.Outcome
import ChangeGate.Revision
import ChangeGate.Timestamp

/-!
Events: what is published while a run goes on.
-/

namespace ChangeGate

inductive Event.Body where
  | runStarted (workflow : String) (revisions : Revisions) (at_ : Timestamp)
  | matrixExpanded (jobs gated alwaysRun : Nat)
  | decisionRecorded (key : String) (decision : Decision) (at_ : Timestamp)
  | detectorFailed (error : String)
  | jobStarted (job : JobId) (name : String) (at_ : Timestamp)
  | jobOutput (job : JobId) (line : String) (isStderr : Bool)
  | jobCompleted (job : JobId) (name : String) (outcome : Outcome) (exitCode : Option Int)
      (duration : Option Nat)
  | runCancelled (at_ : Timestamp)
  | runCompleted (workflow : String) (summary : Summary) (duration : Nat) (at_ : Timestamp)
deriving DecidableEq, Repr

structure Event where
  run : RunId
  body : Event.Body
deriving DecidableEq, Repr

namespace Event

/-- The words under which events of a kind are published. -/
def Body.topic : Body → String
  | .runStarted .. => "run.started"
  | .matrixExpanded .. => "matrix.expanded"
  | .decisionRecorded .. => "decision.recorded"
  | .detectorFailed _ => "decision.failed"
  | .jobStarted .. => "job.started"
  | .jobOutput .. => "job.output"
  | .jobCompleted .. => "job.completed"
  | .runCancelled _ => "run.cancelled"
  | .runCompleted .. => "run.completed"

/-- The job of an event, if it is about one. -/
def Body.job? : Body → Option JobId
  | .jobStarted job .. => some job
  | .jobOutput job .. => some job
  | .jobCompleted job .. => some job
  | _ => none

/-- The subject under which an event is published: its topic, its run and its job. -/
def subject (e : Event) : String :=
  let parts := e.body.topic :: e.run.text :: (e.body.job?.map (·.text)).toList
  ".".intercalate parts

end Event

end ChangeGate
