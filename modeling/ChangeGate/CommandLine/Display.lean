import ChangeGate.Event
import ChangeGate.JobGraph
import ChangeGate.Report
import ChangeGate.Task.Output

/-!
How results are shown to people: one line for each event, and lines for workflows, decisions and
reports.
-/

namespace ChangeGate.CommandLine.Display

def unlines (lines : List String) : String := String.join (lines.map (· ++ "\n"))

def padded (width n : Nat) : String :=
  String.ofList ((toString n).toList.leftpad width ' ')

def mark : Outcome → String
  | .succeeded => "✓"
  | .failed => "✗"
  | .upstreamFailure => "✗"
  | .skipped => "⏭"
  | .cancelled => "⊘"

def truth (b : Bool) : String := if b then "true" else "false"

def eventLine? : Event.Body → Option String
  | .runStarted workflow revisions _ =>
    some ("▶ Running " ++ workflow ++ " (" ++ revisions.text ++ ")")
  | .matrixExpanded jobs gated alwaysRun =>
    some ("  " ++ toString jobs ++ " jobs, " ++ toString gated ++ " gated on changes, " ++
      toString alwaysRun ++ " always run")
  | .decisionRecorded key decision _ =>
    some ("◆ " ++ key ++ " = " ++ truth decision.changesDetected ++ " (" ++ decision.text ++ ")")
  | .detectorFailed error => some ("✗ Change detection failed: " ++ error)
  | .jobStarted _ name _ => some ("  ▶ " ++ name)
  | .jobOutput _ line _ => some ("      | " ++ line)
  | .jobCompleted _ name outcome _ duration =>
    let time := (duration.map fun ms => " in " ++ toString ms ++ "ms").getD ""
    some ("  " ++ mark outcome ++ " " ++ name ++ " " ++ outcome.name ++ time)
  | .runCancelled _ => some "⊘ Run cancelled"
  | .runCompleted .. => none

/-- The events with what the bodies wrote: the lines of a job come after its start. -/
def withOutput (events : List Event) (written : List (JobId × OutputLine)) : List Event :=
  events.flatMap fun e =>
    match e.body with
    | .jobStarted job .. =>
      e :: (written.filter (·.1 = job)).map fun w =>
        ⟨e.run, .jobOutput job w.2.text (w.2.stream = .messages)⟩
    | _ => [e]

def progress (events : List Event) : List String := events.filterMap fun e => eventLine? e.body

def failureLine (job : JobReport) : String :=
  let label := match job.outcome with
    | .upstreamFailure => "upstream failure"
    | _ => "failed"
  "  ✗ " ++ job.name ++ " (" ++ label ++ ") " ++ job.message.getD ""

/-- The lines of a report: the jobs that failed, and the counts. -/
def report (r : RunReport) : List String :=
  let s := r.summary
  let counts := toString s.succeeded ++ " succeeded, " ++ toString s.failed ++ " failed, " ++
    toString s.skipped ++ " skipped, " ++ toString s.upstreamFailure ++ " upstream failures, " ++
    toString s.cancelled ++ " cancelled in " ++ toString r.duration ++ "ms"
  "" :: (r.jobs.filter (·.outcome.isFailure)).map failureLine ++
    [(if r.hasFailures then "✗ " else "✓ ") ++ counts]

/-- The lines of a workflow that is in order. -/
def workflow (w : Workflow) (e : Expansion) : List String :=
  let axis (a : String × List String) : String :=
    "    - " ++ a.1 ++ " (" ++ ", ".intercalate a.2 ++ ")"
  ["✓ Workflow \"" ++ w.name ++ "\" is valid", "  Axes:"] ++ w.matrix.axes.entries.map axis ++
    ["  Jobs: " ++ toString e.jobs.length ++ " (" ++ toString e.alwaysRunCount ++ " always run)"] ++
    if w.changeDetection.patterns.isEmpty then
      ["  i No change patterns: every change is relevant"]
    else []

/-- The line of a job before it is run. -/
def jobLine (index : Nat) (name : String) (gated : Bool) : String :=
  "  " ++ padded 3 index ++ "  " ++ name ++ "  " ++
    if gated then "gated on changes" else "always runs"

def jobs (w : Workflow) (g : JobGraph) : List String :=
  w.name :: g.jobs.map fun job => jobLine job.index job.name (g.dependsOnDetector job.id)

def decision (key : String) (revisions : Revisions) (d : Decision) : List String :=
  [(if d.changesDetected then "✓ " else "⏭ ") ++ key ++ " = " ++ truth d.changesDetected,
    "  " ++ d.text ++ " (" ++ revisions.text ++ ")"]

end ChangeGate.CommandLine.Display
