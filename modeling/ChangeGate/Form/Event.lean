import ChangeGate.Event
import ChangeGate.Form.Decision

/-!
The JSON form of events. The member `type` tells the kind of an event and may stand anywhere among
the members.
-/

namespace ChangeGate.Event

open Json (Reader Source)

inductive Kind where
  | runStarted
  | matrixExpanded
  | decisionRecorded
  | detectorFailed
  | jobStarted
  | jobOutput
  | jobCompleted
  | runCancelled
  | runCompleted
deriving DecidableEq, Repr

namespace Kind

def name : Kind → String
  | .runStarted => "run_started"
  | .matrixExpanded => "matrix_expanded"
  | .decisionRecorded => "decision_recorded"
  | .detectorFailed => "detector_failed"
  | .jobStarted => "job_started"
  | .jobOutput => "job_output"
  | .jobCompleted => "job_completed"
  | .runCancelled => "run_cancelled"
  | .runCompleted => "run_completed"

def byName : List (String × Kind) :=
  [runStarted, matrixExpanded, decisionRecorded, detectorFailed, jobStarted, jobOutput,
    jobCompleted, runCancelled, runCompleted].map fun k => (k.name, k)

end Kind

def Body.kind : Body → Kind
  | .runStarted .. => .runStarted
  | .matrixExpanded .. => .matrixExpanded
  | .decisionRecorded .. => .decisionRecorded
  | .detectorFailed _ => .detectorFailed
  | .jobStarted .. => .jobStarted
  | .jobOutput .. => .jobOutput
  | .jobCompleted .. => .jobCompleted
  | .runCancelled _ => .runCancelled
  | .runCompleted .. => .runCompleted

/-- The members of the JSON form that tell what happened. -/
def Body.members : Body → List (String × Json)
  | .runStarted workflow revisions at_ =>
    [("workflow_name", .string workflow), ("revisions", revisions.toJson),
      ("started_at", at_.toJson)]
  | .matrixExpanded jobs gated alwaysRun =>
    [("job_count", .nat jobs), ("gated_count", .nat gated), ("always_run_count", .nat alwaysRun)]
  | .decisionRecorded key decision at_ =>
    [("key", .string key), ("decision", decision.toJson), ("recorded_at", at_.toJson)]
  | .detectorFailed error => [("error", .string error)]
  | .jobStarted job name at_ =>
    [("job_id", job.toJson), ("display_name", .string name), ("started_at", at_.toJson)]
  | .jobOutput job line isStderr =>
    [("job_id", job.toJson), ("line", .string line), ("is_stderr", .bool isStderr)]
  | .jobCompleted job name outcome exitCode duration =>
    [("job_id", job.toJson), ("display_name", .string name), ("outcome", outcome.toJson),
      ("exit_code", .ofOption .int exitCode), ("duration_ms", .ofOption .nat duration)]
  | .runCancelled at_ => [("cancelled_at", at_.toJson)]
  | .runCompleted workflow summary duration at_ =>
    [("workflow_name", .string workflow), ("summary", summary.toJson),
      ("duration_ms", .nat duration), ("completed_at", at_.toJson)]

def toJson (e : Event) : Json :=
  .object (("type", .string e.body.kind.name) :: ("run_id", e.run.toJson) :: e.body.members)

structure Parts where
  run : Option RunId := none
  job : Option JobId := none
  name : Option String := none
  revisions : Option Revisions := none
  at_ : Option Timestamp := none
  jobs : Option Nat := none
  gated : Option Nat := none
  /-- The number of jobs that run whatever the decision. -/
  alwaysRun : Option Nat := none
  /-- The key of the decision, a line of output or the text of an error. -/
  text : Option String := none
  decision : Option Decision := none
  isStderr : Option Bool := none
  outcome : Option Outcome := none
  exitCode : Option (Option Int) := none
  summary : Option Summary := none
  duration : Option (Option Nat) := none

namespace Parts

def runField : Reader.Field Parts :=
  .of "run_id" Parts.run (Ident.reader .run) fun a p => { p with run := some a }

def jobField : Reader.Field Parts :=
  .of "job_id" Parts.job (Ident.reader .job) fun a p => { p with job := some a }

def nameField (name : String) : Reader.Field Parts :=
  .of name Parts.name .text fun a p => { p with name := some a }

def textField (name : String) : Reader.Field Parts :=
  .of name Parts.text .text fun a p => { p with text := some a }

def atField (name : String) : Reader.Field Parts :=
  .of name Parts.at_ Timestamp.reader fun a p => { p with at_ := some a }

/-- The fields of an event of a kind, after that of the run. -/
def fields : Kind → List (Reader.Field Parts)
  | .runStarted =>
    [nameField "workflow_name",
     .of "revisions" Parts.revisions (Revisions.reader .held)
       fun a p => { p with revisions := some a },
     atField "started_at"]
  | .matrixExpanded =>
    [.of "job_count" Parts.jobs .size fun a p => { p with jobs := some a },
     .of "gated_count" Parts.gated .size fun a p => { p with gated := some a },
     .of "always_run_count" Parts.alwaysRun .size fun a p => { p with alwaysRun := some a }]
  | .decisionRecorded =>
    [textField "key",
     .of "decision" Parts.decision (Decision.reader .held Json.maxDepth)
       fun a p => { p with decision := some a },
     atField "recorded_at"]
  | .detectorFailed => [textField "error"]
  | .jobStarted => [jobField, nameField "display_name", atField "started_at"]
  | .jobOutput =>
    [jobField, textField "line",
     .of "is_stderr" Parts.isStderr .bool fun a p => { p with isStderr := some a }]
  | .jobCompleted =>
    [jobField, nameField "display_name",
     .of "outcome" Parts.outcome (Outcome.reader .held) fun a p => { p with outcome := some a },
     .of "exit_code" Parts.exitCode (.option .int32) fun a p => { p with exitCode := some a },
     .of "duration_ms" Parts.duration (.option .count) fun a p => { p with duration := some a }]
  | .runCancelled => [atField "cancelled_at"]
  | .runCompleted =>
    [nameField "workflow_name",
     .of "summary" Parts.summary (Summary.reader .held) fun a p => { p with summary := some a },
     .of "duration_ms" Parts.duration (fun d => (Reader.count d).map some)
       fun a p => { p with duration := some a },
     atField "completed_at"]

/-- What an event of a kind says, once its fields are read. -/
def body (p : Parts) : Kind → Except Json.ReadError Body
  | .runStarted => do
    let workflow ← Reader.required "workflow_name" p.name
    let revisions ← Reader.required "revisions" p.revisions
    let at_ ← Reader.required "started_at" p.at_
    return .runStarted workflow revisions at_
  | .matrixExpanded => do
    let jobs ← Reader.required "job_count" p.jobs
    let gated ← Reader.required "gated_count" p.gated
    let alwaysRun ← Reader.required "always_run_count" p.alwaysRun
    return .matrixExpanded jobs gated alwaysRun
  | .decisionRecorded => do
    let key ← Reader.required "key" p.text
    let decision ← Reader.required "decision" p.decision
    let at_ ← Reader.required "recorded_at" p.at_
    return .decisionRecorded key decision at_
  | .detectorFailed => do
    let error ← Reader.required "error" p.text
    return .detectorFailed error
  | .jobStarted => do
    let job ← Reader.required "job_id" p.job
    let name ← Reader.required "display_name" p.name
    let at_ ← Reader.required "started_at" p.at_
    return .jobStarted job name at_
  | .jobOutput => do
    let job ← Reader.required "job_id" p.job
    let line ← Reader.required "line" p.text
    let isStderr ← Reader.required "is_stderr" p.isStderr
    return .jobOutput job line isStderr
  | .jobCompleted => do
    let job ← Reader.required "job_id" p.job
    let name ← Reader.required "display_name" p.name
    let outcome ← Reader.required "outcome" p.outcome
    return .jobCompleted job name outcome p.exitCode.join p.duration.join
  | .runCancelled => do
    let at_ ← Reader.required "cancelled_at" p.at_
    return .runCancelled at_
  | .runCompleted => do
    let workflow ← Reader.required "workflow_name" p.name
    let summary ← Reader.required "summary" p.summary
    let duration ← Reader.required "duration_ms" p.duration.join
    let at_ ← Reader.required "completed_at" p.at_
    return .runCompleted workflow summary duration at_

end Parts

/-- The words for what is wanted of an event of a kind. -/
def Kind.expected : Kind → String
  | .runStarted => "struct RunStartedPayload"
  | .matrixExpanded => "struct MatrixExpandedPayload"
  | .decisionRecorded => "struct DecisionRecordedPayload"
  | .detectorFailed => "struct DetectorFailedPayload"
  | .jobStarted => "struct JobStartedPayload"
  | .jobOutput => "struct JobOutputPayload"
  | .jobCompleted => "struct JobCompletedPayload"
  | .runCancelled => "struct RunCancelledPayload"
  | .runCompleted => "struct RunCompletedPayload"

def contents (kind : Kind) : Reader Event :=
  Reader.record kind.expected (Parts.runField :: Parts.fields kind) {}
    (fun p => do
      let run ← Reader.required "run_id" p.run
      let body ← p.body kind
      return { run, body })
    .held

/-- Reads an event that is nested less than `depth` deep. -/
def reader (source : Source) (depth : Nat) : Reader Event := fun d => do
  let tagged ← Reader.tagged "internally tagged enum Event" "type" Kind.byName source (depth - 1) d
  contents tagged.kind tagged.rest

def ofText (text : String) : Except Json.ReadError Event :=
  Json.read (reader .text Json.maxDepth) text

end ChangeGate.Event
