import ChangeGate.Json.Basic
import ChangeGate.Workflow

/-!
The form of workflow files, as a JSON schema. Every member says of which type a value is, what it is
where it is absent, and what it is for.
-/

namespace ChangeGate.Schema

def address (scheme host path : String) : String := scheme ++ "://" ++ host ++ "/" ++ path

/-- The name of the form in which the schema itself is written. -/
def dialect : String := address "http" "json-schema.org" "draft-07/schema#"

def reference (name : String) : Json := .object [("$ref", .string ("#/definitions/" ++ name))]

def text : List (String × Json) := [("type", .string "string")]

def flag : List (String × Json) := [("type", .string "boolean")]

/-- The types of values that may be null. -/
def orNull (type : String) : Json := .array [.string type, .string "null"]

def textOrNull : List (String × Json) := [("type", orNull "string")]

/-- What is said of counts of 32 bits besides their type. -/
def countBounds : List (String × Json) :=
  [("format", .string "uint32"), ("minimum", .number (.real (Binary64.ofRatio false 0 1)))]

def count : List (String × Json) := ("type", .string "integer") :: countBounds

def countOrNull : List (String × Json) := ("type", orNull "integer") :: countBounds

def list (items : Json) : List (String × Json) := [("type", .string "array"), ("items", items)]

def table (values : Json) : List (String × Json) :=
  [("type", .string "object"), ("additionalProperties", values)]

def textTable : List (String × Json) := table (.object text)

def textList : List (String × Json) := list (.object text)

def absent (value : Json) (rest : List (String × Json)) : Json :=
  .object (("default", value) :: rest)

def described (words : String) (rest : List (String × Json)) : Json :=
  .object (("description", .string words) :: rest)

/-- Objects with members, of which some are required. -/
def object (required : List String) (members : List (String × Json)) : List (String × Json) :=
  let rest := [("properties", Json.object members)]
  ("type", .string "object") ::
    (if required.isEmpty then rest else ("required", .array (required.map .string)) :: rest)

/-- What tells which changes are relevant. -/
def changeDetection : Json :=
  .object <| object []
    [("decision_key", absent (.string defaultDecisionKey) text),
      ("patterns", .object
        ([("description", .string "Path prefixes or globs that make a change relevant."),
          ("default", .array [])] ++ textList))]

def explicitJob : Json :=
  described
    ("One explicit instance tuple: axis values plus the `always_run` flag.\n\nValues are " ++
      "read the " ++
      "same way axis values are, so an unquoted `3.10` stays `3.10` instead of passing " ++
      "through a " ++
      "float.")
    (object [] [("always_run", described "Run regardless of the change decision." flag)] ++
      [("additionalProperties", .object text)])

def matrix : Json :=
  .object <| object ["axes"]
    [("axes", described "Axis name to the ordered list of values it may take."
        (table (.object textList))),
      ("exclude", .object
        ([("description", .string "Partial tuples; every instance matching one is dropped."),
          ("default", .array [])] ++ list (.object textTable))),
      ("instances", .object
        ([("description", .string ("Explicit instance tuples. When empty, the full " ++
          "cross-product " ++
            "of `axes` is generated instead.")),
          ("default", .array [])] ++ list (reference "InstanceSpec"))),
      ("max_parallel", absent .null countOrNull)]

def task : Json :=
  .object <| object ["run"]
    [("run", described
        ("Command executed for every instance; supports `$\x7b\x7b matrix.<axis> \x7d\x7d`.") text),
      ("shell", absent (.string "bash") text),
      ("timeout_minutes", absent (.nat 30) count),
      ("variables", absent (.object []) textTable),
      ("working_directory", absent .null textOrNull)]

def workflow : Json :=
  let usual : ChangeDetection := {}
  let members : List (String × Json) :=
    [("change_detection", absent
        (.object [("decision_key", .string usual.decisionKey),
          ("patterns", .array (usual.patterns.map .string))])
        [("allOf", .array [reference "ChangeDetectionConfig"])]),
      ("description", absent .null textOrNull),
      ("matrix", reference "MatrixDefinition"),
      ("name", .object text),
      ("task", reference "TaskDefinition"),
      ("variables", absent (.object []) textTable),
      ("version", absent (.string "1") text)]
  .object <|
    [("$schema", .string dialect), ("title", .string "WorkflowDefinition")] ++
    object ["matrix", "name", "task"] members ++
    [("definitions", .object
      [("ChangeDetectionConfig", changeDetection), ("InstanceSpec", explicitJob),
        ("MatrixDefinition", matrix), ("TaskDefinition", task)])]

end ChangeGate.Schema
