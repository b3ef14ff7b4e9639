import ChangeGate.Shell.Evaluation
import ChangeGate.Task.Context
import ChangeGate.Task.Output

/-!
Carrying a task out. The command goes to the program that the task names; the exit code says whether
it is a success, and the lines it writes are kept.
-/

namespace ChangeGate

/-- The place where tasks are carried out. -/
structure Machine where
  files : FileTree
  /-- The directory from which relative paths are seen. -/
  directory : String
  environment : Table String

structure Execution where
  result : Except Error TaskResult
  /-- The lines that were read of what it wrote: those of each stream in order. -/
  lines : List OutputLine
  files : FileTree

/-- The number of seconds after which a task is given up. -/
def Task.seconds (t : Task) : Nat := t.timeoutMinutes * 60

def outputLines (output messages : List UInt8) : List OutputLine :=
  (streamLines output).map (⟨.output, ·⟩) ++ (streamLines messages).map (⟨.messages, ·⟩)

/-- The result of a command that has ended. -/
def taskResult (seconds : Nat) : Shell.Ending → Except Error TaskResult
  | .exited status => .ok ⟨status, status == 0⟩
  | .killed _ => .ok ⟨-1, false⟩
  | .late => .error (.taskTimeout seconds)

namespace TaskContext

/-- What programs see: the variables of the place and over them those of the task. -/
def allVariables (c : TaskContext) (m : Machine) : Table String :=
  m.environment.insertAll c.environment.entries

/-- Why the program of a task cannot be started, if so. -/
def startFault? (c : TaskContext) (m : Machine) : Option IoFault :=
  let command := c.command m.environment.get?
  let texts := [c.task.shell, command, c.directory] ++ c.environment.keys ++ c.environment.values
  if texts.any (·.toList.contains '\x00') then some (.other "nul byte found in provided data")
  else match m.files.lookup m.directory c.directory with
    | .error fault => some fault
    | .ok (.file _) => some .notADirectory
    | .ok .directory =>
      Shell.startFault? c.task.shell (c.allVariables m)
        (FileTree.absolute (FileTree.names m.directory c.directory)) m.files

/-- Carries a task out, and gives it up after a number of seconds. -/
def execute (c : TaskContext) (m : Machine) (seconds : Nat) : Execution :=
  match c.startFault? m with
  | some fault =>
    ⟨.error (.taskSpawn (c.task.shell ++ ": " ++ fault.message)), [], m.files⟩
  | none =>
    let directory := FileTree.absolute (FileTree.names m.directory c.directory)
    let outcome := Shell.run c.task.shell ["-c", c.command m.environment.get?] (c.allVariables m)
      directory m.files (seconds * 1000)
    ⟨taskResult seconds outcome.ending, outputLines outcome.stdout outcome.stderr, outcome.files⟩

end TaskContext

end ChangeGate
