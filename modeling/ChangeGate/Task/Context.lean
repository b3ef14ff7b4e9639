import ChangeGate.Ident
import ChangeGate.Interpolation
import ChangeGate.Workflow

/-!
What a task is given when it runs for a job: its environment, its directory and its command.
-/

namespace ChangeGate

/-- The name of the variable that holds the value of an axis: letters in upper case and digits are
kept, every other character becomes an underscore. -/
def axisVariable (axis : String) : String :=
  String.ofList (axis.toList.map fun c => if c.isAlphanum then c.toUpper else '_')

/-- The path `path` seen from `base`: an absolute one is itself. -/
def joinPath (base path : String) : String :=
  if path.startsWith "/" then path
  else if base.endsWith "/" ∨ base.isEmpty then base ++ path
  else base ++ "/" ++ path

structure TaskContext where
  run : RunId
  job : JobId
  name : String
  parameters : Parameters
  vars : Table String
  task : Task
  workspace : String

namespace TaskContext

/-- The environment of the task: the variables of the workflow, over them those of the task, over
them one variable for each axis, and over all the names of run and job. -/
def environment (c : TaskContext) : Table String :=
  let axes := c.parameters.entries.map fun e => (axisVariable e.1, e.2)
  let names := [("TOLLGATE_RUN_ID", c.run.text), ("TOLLGATE_JOB_ID", c.job.text),
    ("TOLLGATE_JOB_NAME", c.name)]
  ((c.vars.insertAll c.task.vars.entries).insertAll axes).insertAll names

/-- The directory in which the task runs. -/
def directory (c : TaskContext) : String :=
  match c.task.workingDirectory with
  | some path => joinPath c.workspace path
  | none => c.workspace

/-- The command of the task with its expressions replaced. Variables of the task go before those of
the workflow. -/
def command (c : TaskContext) (environment : String → Option String) : String :=
  let vars := c.vars.insertAll c.task.vars.entries
  Interpolation.interpolate ⟨vars, c.parameters, environment⟩ c.task.run

end TaskContext

structure TaskResult where
  exitCode : Int
  success : Bool
deriving DecidableEq, Repr

end ChangeGate
