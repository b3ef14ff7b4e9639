import ChangeGate.ChangedPaths.Git
import ChangeGate.ChangedPaths.Listing
import ChangeGate.CommandLine.Arguments
import ChangeGate.CommandLine.Display
import ChangeGate.CommandLine.Failure
import ChangeGate.CommandLine.Locations
import ChangeGate.CommandLine.Template
import ChangeGate.Form.Report
import ChangeGate.Form.Schema
import ChangeGate.Form.Workflow
import ChangeGate.Run.OneThread
import ChangeGate.Store.Files
import ChangeGate.Task.Execution

/-!
Carrying commands out. A command reads files, and may change them; what it prints, and whether it
has failed, is its answer.
-/

namespace ChangeGate.CommandLine

/-- The place where a command is carried out. -/
structure Place where
  machine : Machine
  input : List UInt8 := []
  /-- What `git` does. -/
  git : Git
  newId : Nat → Uuid
  moment : Nat → Run.Moment

structure Answer where
  output : String := ""
  failure : Option Failure := none
  status : Nat := 0
  files : FileTree

/-- The state of a run: the files, and what the bodies have written. -/
structure Scene where
  files : FileTree
  written : List (JobId × OutputLine) := []

namespace Place

variable (p : Place)

/-- The answer of a command that prints lines. -/
def say (lines : List String) : Answer :=
  { output := Display.unlines lines, files := p.machine.files }

/-- The answer of a command that has failed, and has left the files as they were. -/
def fail (failure : Failure) : Answer :=
  { failure := some failure, status := 1, files := p.machine.files }

def config : Config := loadConfig p.machine.files p.machine.directory p.machine.environment

/-- Reads a workflow from a file and checks it. -/
def workflow (path : String) : Except Error Workflow := do
  let text ← (p.machine.files.readText p.machine.directory path).mapError .io
  (Workflow.ofText text).mapError fun e =>
    match e with
    | .unreadable e => .serialization e.message
    | .rejected fault => fault.toError

def expansion (w : Workflow) : Except Error Expansion :=
  (w.matrix.expand w.name fun i => ⟨p.newId (i + 1)⟩).mapError (·.toError)

/-- Makes ready to list the changed paths: a list that is written down is read at once. -/
def changedPaths (changes : Changes) (workspace : String) :
    Except Error (Except Error (List String)) :=
  match changes.changedFrom with
  | none => .ok (p.git.changedPaths workspace ⟨changes.base, changes.head⟩).result
  | some path => do
    let bytes ← if path = "-" then .ok p.input
      else (p.machine.files.read p.machine.directory path).mapError .io
    return .ok (← ChangedPaths.ofBytes bytes)

def init : Answer :=
  let m := p.machine
  if m.files.exists? m.directory defaultPath then
    p.say ["! " ++ defaultPath ++ " already exists"]
  else
    match m.files.write m.directory defaultPath (Text.Utf8.encode template.toList) with
    | .error fault => p.fail (.files fault)
    | .ok files => { p.say ["✓ Created " ++ defaultPath] with files }

def validate (path : String) : Except Error Answer := do
  let w ← p.workflow path
  return p.say (Display.workflow w (← p.expansion w))

def expand (path : String) : Except Error Answer := do
  let w ← p.workflow path
  let graph ← (JobGraph.build (← p.expansion w) .respectAlwaysRun).mapError (·.toError)
  return p.say (Display.jobs w graph)

/-- The decision that the detector of a workflow takes, without keeping it. -/
def judge (path : String) (changes : Changes) : Except Error (Detector × Decision) := do
  let w ← p.workflow path
  let paths ← p.changedPaths changes (p.config.workspace.getD ".")
  let detector := Detector.ofWorkflow w.changeDetection
  return (detector, ← detector.evaluate paths)

def detect (path : String) (changes : Changes) (output : Option OutputFormat) :
    Except Error Answer := do
  let (detector, decision) ← p.judge path changes
  match output.getD p.config.outputFormat with
  | .json => return p.say [decision.toJson.indented]
  | .table => return p.say (Display.decision detector.key ⟨changes.base, changes.head⟩ decision)

/-- What the task of a job does in the course of a run. -/
def body (c : TaskContext) (s : Scene) : Run.Body × Scene :=
  let e := c.execute { p.machine with files := s.files } c.task.seconds
  ({ result := e.result }, ⟨e.files, s.written ++ e.lines.map (c.job, ·)⟩)

def store (directory : String) : Store Scene :=
  (Store.files (FileTree.names p.machine.directory directory)).within Scene.files
    fun files s => { s with files }

/-- The answer of a run that has ended, without the report. -/
def afterRun (o : RunOptions) (directory : String) (progress : List String) (files : FileTree) :
    Answer :=
  let kept := if o.keepStore then ["  i Decision store kept at " ++ directory] else []
  let files := if o.keepStore then files
    else files.remove (FileTree.names p.machine.directory directory)
  { p.say (progress ++ kept) with files }

def runId : RunId := ⟨p.newId 0⟩

/-- Where the tasks of a run work. -/
def workspace (o : RunOptions) : String :=
  (o.workspace.or p.config.workspace).getD p.machine.directory

/-- How many jobs of a run may go on at once, if that is said outside the workflow. -/
def maxParallel (o : RunOptions) : Option Nat := o.maxParallel.or p.config.maxParallel

def plan (w : Workflow) (o : RunOptions) : Except Error Plan :=
  Plan.make p.runId w ⟨o.changes.base, o.changes.head⟩
    { workspace := p.workspace o, maxParallel := p.maxParallel o } fun i => ⟨p.newId (i + 1)⟩

/-- Runs a workflow. The decision is kept in a directory of the run, which goes away with it. -/
def run (verbose : Bool) (path : String) (o : RunOptions) : Except Error Answer := do
  let w ← p.workflow path
  let config := p.config
  let output := o.output.getD config.outputFormat
  let paths ← p.changedPaths o.changes (p.workspace o)
  let directory :=
    joinPath (o.storeDir.getD (storeDirectory p.machine.environment config)) p.runId.text
  let files ← (p.machine.files.makeDirectories p.machine.directory directory).mapError .io
  match p.plan w o with
  | .error e =>
    return { p.afterRun o directory [] files with failure := some (.error e), status := 1 }
  | .ok plan =>
    let t := Run.OneThread.run plan (p.store directory) ⟨paths, false, p.body, p.moment⟩ false
      { files }
    let events := t.progress.delivered
    let shown := if verbose then Display.withOutput events t.state.written else events
    let progress := if output = .table then Display.progress shown else []
    match t.progress.report? with
    | none => return { p.say progress with status := 101, files := t.state.files }
    | some report =>
      let before := p.afterRun o directory progress t.state.files
      let lines := match output with
        | .json => [report.toJson.indented]
        | .table => Display.report report
      return { before with
        output := before.output ++ Display.unlines lines
        status := if report.hasFailures then 1 else 0 }

def showConfig : Answer :=
  let c := p.config
  let format := match c.outputFormat with
    | .table => "Table"
    | .json => "Json"
  p.say <|
    ["Current configuration:",
      "  workspace: " ++ c.workspace.getD "(current directory)",
      "  store_dir: " ++ storeDirectory p.machine.environment c,
      "  max_parallel: " ++ (c.maxParallel.map toString).getD "(unlimited)",
      "  output_format: " ++ format] ++
    ((configPath? p.machine.environment).map fun path => ["", "Config file: " ++ path]).getD []

/-- Writes a configuration to its file, and what the files are afterwards. The directory is made
first, and stays when the file cannot be written. -/
def saveConfig (c : Config) : Except Failure Unit × FileTree :=
  let m := p.machine
  match configDirectory? m.environment, configPath? m.environment with
  | some directory, some path =>
    match m.files.makeDirectories m.directory directory with
    | .error fault => (.error (.files fault), m.files)
    | .ok made =>
      match made.write m.directory path (Text.Utf8.encode c.toYaml.toList) with
      | .error fault => (.error (.files fault), made)
      | .ok files => (.ok (), files)
  | _, _ => (.error (.words "Could not determine config directory"), m.files)

def setConfig (key value : String) : Answer :=
  match p.config.set key value with
  | .error fault => p.fail (.words fault.message)
  | .ok c =>
    match p.saveConfig c with
    | (.error failure, files) => { p.fail failure with files }
    | (.ok (), files) => { p.say ["✓ Set " ++ key ++ " = " ++ value] with files }

/-- The answer of a command that may fail. -/
def answer (result : Except Failure Answer) : Answer :=
  match result with
  | .ok a => a
  | .error failure => p.fail failure

def perform (i : Invocation) : Answer :=
  match i.command with
  | .init => p.init
  | .validate path => p.answer ((p.validate path).mapError .error)
  | .expand path => p.answer ((p.expand path).mapError .error)
  | .detect path changes output => p.answer ((p.detect path changes output).mapError .error)
  | .run path options => p.answer ((p.run i.verbose path options).mapError .error)
  | .schema => p.say [Schema.workflow.indented]
  | .showConfig => p.showConfig
  | .setConfig key value => p.setConfig key value
  | .showVersion => p.say ["tollgate " ++ version]

end Place

end ChangeGate.CommandLine
