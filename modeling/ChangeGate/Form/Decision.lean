import ChangeGate.Decision
import ChangeGate.Form.Scalar

/-!
The JSON form of decisions. The reason is an object whose member `kind` tells which reason it is; it
may stand anywhere among the members.
-/

namespace ChangeGate.Decision

open Json (Reader Source)

def Reason.toJson : Reason → Json
  | .matched path pattern =>
    .object [("kind", .string "matched"), ("path", .string path), ("pattern", .string pattern)]
  | .noMatch n => .object [("kind", .string "no_match"), ("paths_considered", .nat n)]
  | .noComparableParent detail =>
    .object [("kind", .string "no_comparable_parent"), ("detail", .string detail)]

def toJson (d : Decision) : Json :=
  .object [("changes_detected", .bool d.changesDetected), ("reason", d.reason.toJson)]

inductive Reason.Kind where
  | matched
  | noMatch
  | noComparableParent
deriving DecidableEq, Repr

def Reason.Kind.byName : List (String × Reason.Kind) :=
  [("matched", .matched), ("no_match", .noMatch), ("no_comparable_parent", .noComparableParent)]

structure Reason.Parts where
  path : Option String := none
  pattern : Option String := none
  considered : Option Nat := none
  detail : Option String := none

def Reason.contents : Reason.Kind → Reader Reason
  | .matched =>
    Reader.record "struct variant DecisionReason::Matched"
      [.of "path" Parts.path .text fun a p => { p with path := some a },
       .of "pattern" Parts.pattern .text fun a p => { p with pattern := some a }]
      {}
      (fun p => do
        let path ← Reader.required "path" p.path
        let pattern ← Reader.required "pattern" p.pattern
        return .matched path pattern)
      .held
  | .noMatch =>
    Reader.record "struct variant DecisionReason::NoMatch"
      [.of "paths_considered" Parts.considered .size fun a p => { p with considered := some a }]
      {}
      (fun p => .noMatch <$> Reader.required "paths_considered" p.considered)
      .held
  | .noComparableParent =>
    Reader.record "struct variant DecisionReason::NoComparableParent"
      [.of "detail" Parts.detail .text fun a p => { p with detail := some a }]
      {}
      (fun p => .noComparableParent <$> Reader.required "detail" p.detail)
      .held

/-- Reads a reason. What it holds may be nested less than `depth` deep. -/
def Reason.reader (source : Source) (depth : Nat) : Reader Reason := fun d => do
  let tagged ← Reader.tagged "internally tagged enum DecisionReason" "kind" Kind.byName source
    depth d
  contents tagged.kind tagged.rest

structure Parts where
  changesDetected : Option Bool := none
  reason : Option Reason := none

/-- Reads a decision that is nested less than `depth` deep. -/
def reader (source : Source) (depth : Nat) : Reader Decision :=
  Reader.record "struct Decision"
    [.of "changes_detected" Parts.changesDetected .bool
       fun a p => { p with changesDetected := some a },
     .of "reason" Parts.reason (Reason.reader source (depth - 2))
       fun a p => { p with reason := some a }]
    {}
    (fun p => do
      let changesDetected ← Reader.required "changes_detected" p.changesDetected
      let reason ← Reader.required "reason" p.reason
      return { changesDetected, reason })
    source

def ofText (text : String) : Except Json.ReadError Decision :=
  Json.read (reader .text Json.maxDepth) text

end ChangeGate.Decision
