/-!
What can go wrong while a workflow is read, expanded, judged and run, and the messages of each.
-/

namespace ChangeGate

/-- Why the file system refused an operation. -/
inductive IoFault where
  | notFound
  | denied
  | alreadyThere
  | notADirectory
  | isADirectory
  | invalidText
  | other (message : String)
deriving DecidableEq, Repr

namespace IoFault

/-- The number of a cause that the system itself reports, its kind and its words. -/
def system? : IoFault → Option (Nat × String × String)
  | .notFound => some (2, "NotFound", "No such file or directory")
  | .denied => some (13, "PermissionDenied", "Permission denied")
  | .alreadyThere => some (17, "AlreadyExists", "File exists")
  | .notADirectory => some (20, "NotADirectory", "Not a directory")
  | .isADirectory => some (21, "IsADirectory", "Is a directory")
  | _ => none

def message (f : IoFault) : String :=
  match f.system?, f with
  | some (number, _, words), _ => words ++ " (os error " ++ toString number ++ ")"
  | none, .other message => message
  | none, _ => "stream did not contain valid UTF-8"

end IoFault

inductive Error where
  | revisionResolution (revision reason : String)
  | diff (detail : String)
  | duplicateWrite (key : String)
  | decisionNotFound (key : String)
  | invalidDecisionKey (key : String)
  | invalidWorkflow (detail : String)
  | invalidMatrix (detail : String)
  | duplicateInstance (name : String)
  | graph (detail : String)
  | taskSpawn (detail : String)
  | taskTimeout (seconds : Nat)
  | eventBus (detail : String)
  | io (fault : IoFault)
  | serialization (detail : String)
  | internal (detail : String)
deriving DecidableEq, Repr

namespace Error

def kind : Error → String
  | .revisionResolution .. => "RevisionResolution"
  | .diff _ => "Diff"
  | .duplicateWrite _ => "DuplicateWrite"
  | .decisionNotFound _ => "DecisionNotFound"
  | .invalidDecisionKey _ => "InvalidDecisionKey"
  | .invalidWorkflow _ => "InvalidWorkflow"
  | .invalidMatrix _ => "InvalidMatrix"
  | .duplicateInstance _ => "DuplicateInstance"
  | .graph _ => "Graph"
  | .taskSpawn _ => "TaskSpawn"
  | .taskTimeout _ => "TaskTimeout"
  | .eventBus _ => "EventBus"
  | .io _ => "Io"
  | .serialization _ => "Serialization"
  | .internal _ => "Internal"

def message : Error → String
  | .revisionResolution revision reason => "Cannot resolve revision " ++ revision ++ ": " ++ reason
  | .diff d => "Diff failed: " ++ d
  | .duplicateWrite k => "Decision already written for key: " ++ k
  | .decisionNotFound k => "Decision not found for key: " ++ k
  | .invalidDecisionKey k => "Invalid decision key: " ++ k
  | .invalidWorkflow d => "Invalid workflow definition: " ++ d
  | .invalidMatrix d => "Invalid matrix: " ++ d
  | .duplicateInstance n => "Duplicate job instance: " ++ n
  | .graph d => "Job graph error: " ++ d
  | .taskSpawn d => "Failed to spawn task: " ++ d
  | .taskTimeout s => "Task timeout after " ++ toString s ++ " seconds"
  | .eventBus d => "Event bus error: " ++ d
  | .io f => "IO error: " ++ f.message
  | .serialization d => "Serialization error: " ++ d
  | .internal d => "Internal error: " ++ d

/-- Whether an error says that a revision cannot be resolved, so that there is nothing to compare
with. -/
def isRevisionResolution : Error → Bool
  | .revisionResolution .. => true
  | _ => false

end Error

end ChangeGate
