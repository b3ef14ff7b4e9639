import ChangeGate.Error
import ChangeGate.Text.Quoted

/-!
Failures of commands, and how they are shown: an error by its kind and what it holds, with all texts
quoted.
-/

namespace ChangeGate

/-- The shown form of fields between braces. -/
def shownFields (name : String) (fields : List (String × String)) : String :=
  name ++ " \x7b " ++ ", ".intercalate (fields.map fun e => e.1 ++ ": " ++ e.2) ++ " \x7d"

/-- The shown form of a cause: those of the system have a number, the others a message of their
own. -/
def IoFault.shown (f : IoFault) : String :=
  match f.system?, f with
  | some (number, kind, words), _ =>
    shownFields "Os"
      [("code", toString number), ("kind", kind), ("message", Text.quoted words)]
  | none, .other message =>
    shownFields "Error" [("kind", "InvalidInput"), ("message", Text.quoted message)]
  | none, _ => shownFields "Error" [("kind", "InvalidData"), ("message", Text.quoted f.message)]

def Error.shown (e : Error) : String :=
  let around (text : String) : String := e.kind ++ "(" ++ text ++ ")"
  match e with
  | .revisionResolution revision reason =>
    shownFields e.kind [("revision", Text.quoted revision), ("reason", Text.quoted reason)]
  | .taskTimeout seconds => shownFields e.kind [("seconds", toString seconds)]
  | .io fault => around fault.shown
  | .diff d => around (Text.quoted d)
  | .duplicateWrite k => around (Text.quoted k)
  | .decisionNotFound k => around (Text.quoted k)
  | .invalidDecisionKey k => around (Text.quoted k)
  | .invalidWorkflow d => around (Text.quoted d)
  | .invalidMatrix d => around (Text.quoted d)
  | .duplicateInstance n => around (Text.quoted n)
  | .graph d => around (Text.quoted d)
  | .taskSpawn d => around (Text.quoted d)
  | .eventBus d => around (Text.quoted d)
  | .serialization d => around (Text.quoted d)
  | .internal d => around (Text.quoted d)

namespace CommandLine

inductive Failure where
  | error (e : Error)
  | files (fault : IoFault)
  | words (message : String)
deriving DecidableEq, Repr

def Failure.line : Failure → String
  | .error e => "Error: " ++ e.shown
  | .files fault => "Error: " ++ fault.shown
  | .words message => "Error: " ++ Text.quoted message

end CommandLine

end ChangeGate
