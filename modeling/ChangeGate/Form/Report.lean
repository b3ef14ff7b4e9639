import ChangeGate.Form.Decision
import ChangeGate.Report

/-!
The JSON form of reports. Values that are absent are written as null; when a report is read they may
as well be left out.
-/

namespace ChangeGate

open Json (Reader Source)

/-- The JSON form of the values of a job. -/
def Parameters.toJson (p : Parameters) : Json :=
  .object (p.entries.map fun e => (e.1, .string e.2))

/-- The JSON form of the report of a job. -/
def JobReport.toJson (r : JobReport) : Json :=
  .object [("job_id", r.id.toJson), ("index", .nat r.index), ("display_name", .string r.name),
    ("parameters", Parameters.toJson r.parameters), ("always_run", .bool r.alwaysRun),
    ("gated", .bool r.gated), ("outcome", r.outcome.toJson),
    ("exit_code", .ofOption .int r.exitCode), ("message", .ofOption .string r.message),
    ("started_at", .ofOption Timestamp.toJson r.startedAt),
    ("completed_at", r.completedAt.toJson), ("duration_ms", .ofOption .nat r.duration)]

/-- The report of a job as far as it is read. -/
structure JobReport.Parts where
  id : Option JobId := none
  index : Option Nat := none
  name : Option String := none
  parameters : Option Parameters := none
  alwaysRun : Option Bool := none
  gated : Option Bool := none
  outcome : Option Outcome := none
  exitCode : Option (Option Int) := none
  message : Option (Option String) := none
  startedAt : Option (Option Timestamp) := none
  completedAt : Option Timestamp := none
  duration : Option (Option Nat) := none

def JobReport.fields (source : Source) : List (Reader.Field Parts) :=
  [.of "job_id" Parts.id (Ident.reader .job) fun a p => { p with id := some a },
   .of "index" Parts.index .size fun a p => { p with index := some a },
   .of "display_name" Parts.name .text fun a p => { p with name := some a },
   .of "parameters" Parts.parameters (.table .text) fun a p => { p with parameters := some a },
   .of "always_run" Parts.alwaysRun .bool fun a p => { p with alwaysRun := some a },
   .of "gated" Parts.gated .bool fun a p => { p with gated := some a },
   .of "outcome" Parts.outcome (Outcome.reader source) fun a p => { p with outcome := some a },
   .of "exit_code" Parts.exitCode (.option .int32) fun a p => { p with exitCode := some a },
   .of "message" Parts.message (.option .text) fun a p => { p with message := some a },
   .of "started_at" Parts.startedAt (.option Timestamp.reader)
     fun a p => { p with startedAt := some a },
   .of "completed_at" Parts.completedAt Timestamp.reader
     fun a p => { p with completedAt := some a },
   .of "duration_ms" Parts.duration (.option .count) fun a p => { p with duration := some a }]

def JobReport.reader (source : Source) : Reader JobReport :=
  Reader.record "struct JobReport" (fields source) {}
    (fun p => do
      let id ← Reader.required "job_id" p.id
      let index ← Reader.required "index" p.index
      let name ← Reader.required "display_name" p.name
      let parameters ← Reader.required "parameters" p.parameters
      let alwaysRun ← Reader.required "always_run" p.alwaysRun
      let gated ← Reader.required "gated" p.gated
      let outcome ← Reader.required "outcome" p.outcome
      let completedAt ← Reader.required "completed_at" p.completedAt
      return {
        id, index, name, parameters, alwaysRun, gated, outcome
        exitCode := p.exitCode.join
        message := p.message.join
        startedAt := p.startedAt.join
        completedAt
        duration := p.duration.join })
    source

/-- The JSON form of the report of a run. -/
def RunReport.toJson (r : RunReport) : Json :=
  .object [("run_id", r.id.toJson), ("workflow_name", .string r.workflow),
    ("revisions", r.revisions.toJson), ("decision", .ofOption Decision.toJson r.decision),
    ("detector_error", .ofOption .string r.detectorError),
    ("jobs", .array (r.jobs.map JobReport.toJson)), ("started_at", r.startedAt.toJson),
    ("completed_at", r.completedAt.toJson), ("duration_ms", .nat r.duration)]

/-- The report of a run as far as it is read. -/
structure RunReport.Parts where
  id : Option RunId := none
  workflow : Option String := none
  revisions : Option Revisions := none
  decision : Option (Option Decision) := none
  detectorError : Option (Option String) := none
  jobs : Option (List JobReport) := none
  startedAt : Option Timestamp := none
  completedAt : Option Timestamp := none
  duration : Option Nat := none

/-- The fields of the report of a run that is nested less than `depth` deep. -/
def RunReport.fields (source : Source) (depth : Nat) : List (Reader.Field Parts) :=
  [.of "run_id" Parts.id (Ident.reader .run) fun a p => { p with id := some a },
   .of "workflow_name" Parts.workflow .text fun a p => { p with workflow := some a },
   .of "revisions" Parts.revisions (Revisions.reader source)
     fun a p => { p with revisions := some a },
   .of "decision" Parts.decision (.option (Decision.reader source (depth - 1)))
     fun a p => { p with decision := some a },
   .of "detector_error" Parts.detectorError (.option .text)
     fun a p => { p with detectorError := some a },
   .of "jobs" Parts.jobs (.list (JobReport.reader source)) fun a p => { p with jobs := some a },
   .of "started_at" Parts.startedAt Timestamp.reader fun a p => { p with startedAt := some a },
   .of "completed_at" Parts.completedAt Timestamp.reader
     fun a p => { p with completedAt := some a },
   .of "duration_ms" Parts.duration .count fun a p => { p with duration := some a }]

/-- Reads the report of a run that is nested less than `depth` deep. -/
def RunReport.reader (source : Source) (depth : Nat) : Reader RunReport :=
  Reader.record "struct RunReport" (fields source depth) {}
    (fun p => do
      let id ← Reader.required "run_id" p.id
      let workflow ← Reader.required "workflow_name" p.workflow
      let revisions ← Reader.required "revisions" p.revisions
      let jobs ← Reader.required "jobs" p.jobs
      let startedAt ← Reader.required "started_at" p.startedAt
      let completedAt ← Reader.required "completed_at" p.completedAt
      let duration ← Reader.required "duration_ms" p.duration
      return {
        id, workflow, revisions
        decision := p.decision.join
        detectorError := p.detectorError.join
        jobs, startedAt, completedAt, duration })
    source

/-- Reads the report of a run from its text. -/
def RunReport.ofText (text : String) : Except Json.ReadError RunReport :=
  Json.read (reader .text Json.maxDepth) text

end ChangeGate
