import ChangeGate.Bits
import ChangeGate.Detector
import ChangeGate.JobGraph
import ChangeGate.Revision
import ChangeGate.Task.Context

/-!
Plans: what is settled before a run starts. A plan exists exactly if the workflow is in order and
its matrix expands to jobs; everything that happens after that is reported by the run itself.
-/

namespace ChangeGate

/-- What a run is told besides its workflow. -/
structure Settings where
  workspace : String
  /-- How many jobs may run at once; this goes before what the workflow says. -/
  maxParallel : Option Nat := none
  policy : GatePolicy := .respectAlwaysRun
deriving DecidableEq, Repr

structure Plan where
  run : RunId
  workflow : Workflow
  /-- The revisions between which changes are looked for. -/
  revisions : Revisions
  settings : Settings
  detector : Detector
  graph : JobGraph
  /-- How many jobs may run at once, if there is a limit. -/
  limit : Option Nat

namespace Plan

/-- The greatest number of slots that can be handed out. -/
def maxSlots : Nat := Bits.values 61 - 1

/-- The number of slots of a run: what the settings say, else what the workflow says, and at least
one. -/
def slots (settings workflow : Option Nat) : Option Nat := (settings.or workflow).map (max 1)

/-- The plan of a run, if the workflow is in order. The job at index `i` has the identifier
`newId i`. The detector is the one that the workflow describes unless another is given. -/
def make (run : RunId) (workflow : Workflow) (revisions : Revisions) (settings : Settings)
    (newId : Nat → JobId) (detector : Detector := Detector.ofWorkflow workflow.changeDetection) :
    Except Error Plan := do
  workflow.check.mapError (·.toError)
  let expansion ← (workflow.matrix.expand workflow.name newId).mapError (·.toError)
  let graph ← (JobGraph.build expansion settings.policy).mapError (·.toError)
  let limit := slots settings.maxParallel expansion.maxParallel
  return { run, workflow, revisions, settings, detector, graph, limit }

variable (p : Plan)

/-- Whether a job waits for the decision. -/
def isGated (job : Job) : Bool := p.graph.dependsOnDetector job.id

def context (job : Job) : TaskContext where
  run := p.run
  job := job.id
  name := job.name
  parameters := job.parameters
  vars := p.workflow.vars
  task := p.workflow.task
  workspace := p.settings.workspace

end Plan

end ChangeGate
