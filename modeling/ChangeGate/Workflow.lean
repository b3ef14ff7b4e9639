import ChangeGate.Error
import ChangeGate.Table
import ChangeGate.Text.Blank
import ChangeGate.Text.Quoted

/-!
Workflow definitions: the patterns that make a change relevant, the matrix of parameters, and the
task that every job of the matrix runs. A definition is checked for what can be told without
expanding the matrix.
-/

namespace ChangeGate

/-- The key of the decision unless another is given. -/
def defaultDecisionKey : String := "changes_detected"

abbrev Parameters := Table String

/-- A job asked for by name: its values and whether it runs whatever the decision. -/
structure Instance where
  parameters : Parameters
  alwaysRun : Bool := false
deriving DecidableEq, Repr

/-- The parameters that the jobs of a workflow range over. -/
structure Matrix where
  axes : Table (List String)
  /-- The jobs asked for; without any, all combinations of the axes. -/
  instances : List Instance := []
  /-- Partial tuples; a job that agrees with one is left out. -/
  exclude : List Parameters := []
  maxParallel : Option Nat := none
deriving Repr

structure Task where
  run : String
  shell : String := "bash"
  workingDirectory : Option String := none
  timeoutMinutes : Nat := 30
  vars : Table String := ∅
deriving Repr

structure ChangeDetection where
  patterns : List String := []
  decisionKey : String := defaultDecisionKey
deriving DecidableEq, Repr

structure Workflow where
  version : String := "1"
  name : String
  description : Option String := none
  vars : Table String := ∅
  changeDetection : ChangeDetection := {}
  matrix : Matrix
  task : Task
deriving Repr

inductive Matrix.Fault where
  | noParallelism
  | noAxes
  | blankAxis
  | noValues (axis : String)
  | repeatedValue (axis value : String)
  | unknownAxis (axis : String)
  | missingValue (tuple : Parameters) (axis : String)
  /-- A job asked for has a value that the axis has not. -/
  | undeclaredValue (value axis : String)
  | duplicateJob (name : String)
  | noJobs
deriving DecidableEq, Repr

/-- The error that a fault of a matrix is. -/
def Matrix.Fault.toError : Matrix.Fault → Error
  | .noParallelism => .invalidMatrix "max_parallel must be positive"
  | .noAxes => .invalidMatrix "at least one axis is required"
  | .blankAxis => .invalidMatrix "axis name is empty"
  | .noValues axis => .invalidMatrix ("axis '" ++ axis ++ "' has no values")
  | .repeatedValue axis value =>
    .invalidMatrix ("axis '" ++ axis ++ "' lists value '" ++ value ++ "' twice")
  | .unknownAxis axis => .invalidMatrix ("unknown axis '" ++ axis ++ "'")
  | .missingValue tuple axis =>
    .invalidMatrix
      ("instance " ++ Text.quotedTable tuple ++ " has no value for axis '" ++ axis ++ "'")
  | .undeclaredValue value axis =>
    .invalidMatrix ("value '" ++ value ++ "' is not declared for axis '" ++ axis ++ "'")
  | .duplicateJob name => .duplicateInstance name
  | .noJobs => .invalidMatrix "matrix expands to zero jobs"

/-- The first item of a list that occurs again later, at its second occurrence. -/
def firstRepeated? (seen : List String) : List String → Option String
  | [] => none
  | a :: rest => if seen.contains a then some a else firstRepeated? (a :: seen) rest

def Matrix.checkAxis (axis : String) (values : List String) : Except Matrix.Fault Unit :=
  if Text.isBlankText axis then .error .blankAxis
  else if values.isEmpty then .error (.noValues axis)
  else match firstRepeated? [] values with
    | some value => .error (.repeatedValue axis value)
    | none => .ok ()

/-- Checks the axes: there is one, and each has a name and values that differ. -/
def Matrix.checkAxes (m : Matrix) : Except Matrix.Fault Unit :=
  if m.axes.isEmpty then .error .noAxes
  else m.axes.entries.forM fun e => Matrix.checkAxis e.1 e.2

inductive Workflow.Fault where
  | blankName
  | blankCommand
  | noTime
  | blankKey
  | emptyPattern
  | matrix (fault : Matrix.Fault)
deriving DecidableEq, Repr

/-- The error that a fault of a workflow is. -/
def Workflow.Fault.toError : Workflow.Fault → Error
  | .blankName => .invalidWorkflow "workflow name is empty"
  | .blankCommand => .invalidWorkflow "task command is empty"
  | .noTime => .invalidWorkflow "task timeout_minutes must be positive"
  | .blankKey => .invalidWorkflow "decision_key is empty"
  | .emptyPattern => .invalidWorkflow "empty path pattern"
  | .matrix fault => fault.toError

/-- Checks a workflow, its parts in order. -/
def Workflow.check (w : Workflow) : Except Workflow.Fault Unit :=
  if Text.isBlankText w.name then .error .blankName
  else if Text.isBlankText w.task.run then .error .blankCommand
  else if w.task.timeoutMinutes = 0 then .error .noTime
  else if Text.isBlankText w.changeDetection.decisionKey then .error .blankKey
  else if w.changeDetection.patterns.any (·.isEmpty) then .error .emptyPattern
  else if w.matrix.maxParallel = some 0 then .error (.matrix .noParallelism)
  else w.matrix.checkAxes.mapError .matrix

end ChangeGate
