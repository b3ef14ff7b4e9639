import ChangeGate.Ident
import ChangeGate.Workflow

/-!
Expansion of a matrix into jobs. Without jobs asked for by name, every combination of the values of
the axes is a job, the first axis varying slowest. Jobs asked for are put in the order of the axes.
Jobs that agree with a partial tuple to be excluded are left out.
-/

namespace ChangeGate

structure Job where
  id : JobId
  index : Nat
  name : String
  parameters : Parameters
  alwaysRun : Bool
deriving DecidableEq, Repr

structure Expansion where
  workflow : String
  jobs : List Job
  maxParallel : Option Nat
deriving Repr

/-- The number of jobs that run whatever the decision. -/
def Expansion.alwaysRunCount (e : Expansion) : Nat := e.jobs.countP (·.alwaysRun)

/-- The name of a job: the workflow, and its values in parentheses. -/
def jobName (workflow : String) (parameters : Parameters) : String :=
  let values := parameters.entries.map fun e => e.1 ++ "=" ++ e.2
  workflow ++ " (" ++ ", ".intercalate values ++ ")"

namespace Matrix

/-- All combinations of the values of axes, each a list of pairs of axis and value. The first axis
varies slowest. -/
def combinations : List (String × List String) → List (List (String × String))
  | [] => [[]]
  | (axis, values) :: rest =>
    let tails := combinations rest
    values.flatMap fun value => tails.map fun tail => (axis, value) :: tail

def product (m : Matrix) : List Instance :=
  (combinations m.axes.entries).map fun tuple => { parameters := Table.ofList tuple }

/-- Checks that a tuple names only axes of the matrix. -/
def checkKnownAxes (m : Matrix) (tuple : Parameters) : Except Fault Unit :=
  match tuple.keys.find? fun axis => !m.axes.contains axis with
  | some axis => .error (.unknownAxis axis)
  | none => .ok ()

/-- The value of a tuple for an axis, which must be one of the values of the axis. -/
def valueFor (tuple : Parameters) (axis : String) (values : List String) : Except Fault String :=
  match tuple.get? axis with
  | none => .error (.missingValue tuple axis)
  | some value =>
    if values.contains value then .ok value else .error (.undeclaredValue value axis)

/-- The values of a tuple in the order of the axes. -/
def valuesInOrder (tuple : Parameters) :
    List (String × List String) → Except Fault (List (String × String))
  | [] => .ok []
  | (axis, values) :: rest => do
    let value ← valueFor tuple axis values
    return (axis, value) :: (← valuesInOrder tuple rest)

/-- A job asked for, with its values in the order of the axes. -/
def normalize (m : Matrix) (spec : Instance) : Except Fault Instance := do
  m.checkKnownAxes spec.parameters
  let values ← valuesInOrder spec.parameters m.axes.entries
  return { spec with parameters := Table.ofList values }

/-- Whether a job agrees with a partial tuple. The empty tuple excludes nothing. -/
def agrees (parameters partialTuple : Parameters) : Bool :=
  !partialTuple.isEmpty &&
    partialTuple.entries.all fun e => parameters.get? e.1 == some e.2

def isExcluded (m : Matrix) (parameters : Parameters) : Bool :=
  m.exclude.any (agrees parameters)

/-- The first of the instances that has the values of an earlier one. -/
def firstDuplicate? (seen : List (List String)) : List Instance → Option Instance
  | [] => none
  | spec :: rest =>
    if seen.contains spec.parameters.values then some spec
    else firstDuplicate? (spec.parameters.values :: seen) rest

/-- The instances of the matrix before any is left out. -/
def allInstances (m : Matrix) : Except Fault (List Instance) :=
  if m.instances.isEmpty then .ok m.product else m.instances.mapM m.normalize

def kept (m : Matrix) : Except Fault (List Instance) := do
  m.checkAxes
  m.exclude.forM m.checkKnownAxes
  let all ← m.allInstances
  return all.filter fun spec => !m.isExcluded spec.parameters

/-- Expands the matrix of a workflow into jobs. The job at index `i` has the identifier `newId i`.
-/
def expand (m : Matrix) (workflow : String) (newId : Nat → JobId) : Except Fault Expansion := do
  let specs ← m.kept
  match firstDuplicate? [] specs with
  | some spec => throw (.duplicateJob (jobName workflow spec.parameters))
  | none => pure ()
  if specs.isEmpty then throw .noJobs
  let jobs := specs.zipIdx.map fun (spec, i) =>
    { id := newId i, index := i, name := jobName workflow spec.parameters,
      parameters := spec.parameters, alwaysRun := spec.alwaysRun : Job }
  return { workflow, jobs, maxParallel := m.maxParallel }

end Matrix

end ChangeGate
