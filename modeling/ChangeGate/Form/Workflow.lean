import ChangeGate.Json.Basic
import ChangeGate.Workflow
import ChangeGate.Yaml.Printer
import ChangeGate.Yaml.Reader

/-!
The YAML form of workflow definitions, and the JSON form of a job asked for. All values are read
as texts, as they are written; unknown fields are passed over. A job asked for is a mapping from
axes to values with one name set apart for the flag that it always runs.
-/

namespace ChangeGate

open Yaml (Document Node Path Reader Reading)

def Yaml.Reader.text : Reader String := Reader.string "a string"

def Yaml.Reader.texts : Reader (Table String) := Reader.table .text

/-- The name set apart in a job asked for. -/
def Instance.flagName : String := "always_run"

def Instance.readEntry (doc : Document) (path : Path) (spec : Instance) (k v : Node) :
    Reading Instance := do
  let key ← Reader.text doc path k
  let valuePath := Reader.valuePath path k
  if key = flagName then
    let flag ← Reader.bool doc valuePath v
    return { spec with alwaysRun := flag }
  else
    let value ← (Reader.text doc valuePath v).mapError fun e =>
      .shape path (.other ("axis '" ++ key ++ "': " ++ e.message))
    if spec.parameters.contains key then
      Reader.failAt path (.other ("axis '" ++ key ++ "' given twice"))
    else return { spec with parameters := spec.parameters.insert key value }

/-- Reads a job asked for. An axis may be given once. -/
def Instance.reader : Reader Instance := fun doc path node => do
  let entries ← Reader.entriesOf "a map of axis names to values" doc path node
  entries.foldlM (fun spec e => readEntry doc path spec e.1 e.2) ⟨∅, false⟩

/-- The entries of a job asked for: its values in order, then the flag, only if it is set. -/
def Instance.toJson (spec : Instance) : Json :=
  .object (spec.parameters.entries.map (fun e => (e.1, .string e.2)) ++
    (if spec.alwaysRun then [(flagName, .bool true)] else []))

/-- The entries of a job asked for as scalars of a document. -/
def Instance.atoms (spec : Instance) : List (String × Yaml.Atom) :=
  spec.parameters.entries.map (fun e => (e.1, .text e.2)) ++
    (if spec.alwaysRun then [(flagName, .bool true)] else [])

def Instance.toYaml (spec : Instance) : String := Yaml.writeMapping spec.atoms

/-- The rules for changes as far as they are read. -/
structure ChangeDetection.Parts where
  patterns : Option (List String) := none
  decisionKey : Option String := none

def ChangeDetection.reader : Reader ChangeDetection :=
  Reader.record "struct ChangeDetectionConfig"
    [.of "patterns" Parts.patterns (fun _ => .list .text) fun a p => { p with patterns := some a },
     .of "decision_key" Parts.decisionKey (fun _ => .text)
       fun a p => { p with decisionKey := some a }]
    {}
    (fun p => .ok
      { patterns := p.patterns.getD []
        decisionKey := p.decisionKey.getD defaultDecisionKey })

structure Matrix.Parts where
  axes : Option (Table (List String)) := none
  instances : Option (List Instance) := none
  exclude : Option (List Parameters) := none
  maxParallel : Option (Option Nat) := none

def Matrix.reader : Reader Matrix :=
  Reader.record "struct MatrixDefinition"
    [.of "axes" Parts.axes (fun _ => .table (.list .text)) fun a p => { p with axes := some a },
     .of "instances" Parts.instances (fun _ => .list Instance.reader)
       fun a p => { p with instances := some a },
     .of "exclude" Parts.exclude (fun _ => .list .texts) fun a p => { p with exclude := some a },
     .of "max_parallel" Parts.maxParallel (fun outer => .option outer .word)
       fun a p => { p with maxParallel := some a }]
    {}
    (fun p => do
      let axes ← Reader.required "axes" p.axes
      return { axes
               instances := p.instances.getD []
               exclude := p.exclude.getD []
               maxParallel := p.maxParallel.getD none })

structure Task.Parts where
  run : Option String := none
  shell : Option String := none
  workingDirectory : Option (Option String) := none
  timeoutMinutes : Option Nat := none
  vars : Option (Table String) := none

def Task.reader : Reader Task :=
  Reader.record "struct TaskDefinition"
    [.of "run" Parts.run (fun _ => .text) fun a p => { p with run := some a },
     .of "shell" Parts.shell (fun _ => .text) fun a p => { p with shell := some a },
     .of "working_directory" Parts.workingDirectory (fun outer => .option outer .text)
       fun a p => { p with workingDirectory := some a },
     .of "timeout_minutes" Parts.timeoutMinutes (fun _ => .word)
       fun a p => { p with timeoutMinutes := some a },
     .of "variables" Parts.vars (fun _ => .texts) fun a p => { p with vars := some a }]
    {}
    (fun p => do
      let run ← Reader.required "run" p.run
      return { run
               shell := p.shell.getD "bash"
               workingDirectory := p.workingDirectory.getD none
               timeoutMinutes := p.timeoutMinutes.getD 30
               vars := p.vars.getD ∅ })

structure Workflow.Parts where
  version : Option String := none
  name : Option String := none
  description : Option (Option String) := none
  vars : Option (Table String) := none
  changeDetection : Option ChangeDetection := none
  matrix : Option Matrix := none
  task : Option Task := none

def Workflow.reader : Reader Workflow :=
  Reader.record "struct WorkflowDefinition"
    [.of "version" Parts.version (fun _ => .text) fun a p => { p with version := some a },
     .of "name" Parts.name (fun _ => .text) fun a p => { p with name := some a },
     .of "description" Parts.description (fun outer => .option outer .text)
       fun a p => { p with description := some a },
     .of "variables" Parts.vars (fun _ => .texts) fun a p => { p with vars := some a },
     .of "change_detection" Parts.changeDetection (fun _ => ChangeDetection.reader)
       fun a p => { p with changeDetection := some a },
     .of "matrix" Parts.matrix (fun _ => Matrix.reader) fun a p => { p with matrix := some a },
     .of "task" Parts.task (fun _ => Task.reader) fun a p => { p with task := some a }]
    {}
    (fun p => do
      let name ← Reader.required "name" p.name
      let matrix ← Reader.required "matrix" p.matrix
      let task ← Reader.required "task" p.task
      return { version := p.version.getD "1"
               name
               description := p.description.getD none
               vars := p.vars.getD ∅
               changeDetection := p.changeDetection.getD {}
               matrix
               task })

inductive Workflow.TextError where
  | unreadable (e : Yaml.TextError)
  | rejected (fault : Workflow.Fault)
deriving DecidableEq, Repr

def Workflow.ofText (text : String) : Except Workflow.TextError Workflow := do
  let workflow ← (Yaml.read Workflow.reader text).mapError .unreadable
  (workflow.check).mapError .rejected
  return workflow

end ChangeGate
