import ChangeGate.Json.Token
import ChangeGate.Shape

/-!
JSON texts as they are read. A draft is the value that a text writes as far as the text goes: where
it breaks off or goes wrong, a `fault` stands in the place of the value that was due, and the lists
around it are left open. So a reader that walks a draft from left to right meets the first fault of
the text exactly where the text has it.
-/

namespace ChangeGate.Json

/-- The value that a text writes, as far as it goes. -/
inductive Draft where
  | null
  | bool (value : Bool)
  | number (value : Number)
  | string (value : String)
  | unreadable
  /-- A list of values; `closed` tells whether its end was found. -/
  | array (items : List Draft) (closed : Bool)
  /-- Named values in order, repeated names included; `closed` tells whether the end was found. -/
  | object (members : List (String × Draft)) (closed : Bool)
  | fault
deriving Repr, Inhabited

namespace Draft

/-- A list that is being read: what it holds so far, last first. -/
inductive Frame where
  | items (done : List Draft)
  /-- Named values, and the name whose value is being read. -/
  | members (done : List (String × Draft)) (name : String)

inductive Due where
  | value
  | firstItem
  /-- A name or the end of the named values, after those done so far. -/
  | name (done : List (String × Draft)) (orEnd : Bool)
  | colon (done : List (String × Draft)) (name : String)
  | after (value : Draft)

/-- Puts a value into the lists around it and leaves them all open. -/
def abandon (value : Draft) : List Frame → Draft
  | [] => value
  | .items done :: frames => abandon (.array (done.reverse ++ [value]) false) frames
  | .members done name :: frames =>
    abandon (.object (done.reverse ++ [(name, value)]) false) frames

/-- Reads tokens. Answers the draft and whether the text holds one whole value and no more. -/
def build (due : Due) (frames : List Frame) : List Token → Draft × Bool
  | [] =>
    match due, frames with
    | .after v, [] => (v, true)
    | .after v, .items done :: frames =>
      (abandon (.array (done.reverse ++ [v]) false) frames, false)
    | .after v, .members done name :: frames =>
      (abandon (.object (done.reverse ++ [(name, v)]) false) frames, false)
    | .value, frames => (abandon .fault frames, false)
    | .firstItem, frames => (abandon (.array [] false) frames, false)
    | .name done _, frames => (abandon (.object done.reverse false) frames, false)
    | .colon done name, frames =>
      (abandon (.object (done.reverse ++ [(name, .fault)]) false) frames, false)
  | token :: rest =>
    match due with
    | .after v =>
      match frames, token with
      | [], _ => (v, false)
      | .items done :: frames, .comma => build .value (.items (v :: done) :: frames) rest
      | .items done :: frames, .closeArray =>
        build (.after (.array (done.reverse ++ [v]) true)) frames rest
      | .items done :: frames, _ => (abandon (.array (done.reverse ++ [v]) false) frames, false)
      | .members done name :: frames, .comma =>
        build (.name ((name, v) :: done) false) frames rest
      | .members done name :: frames, .closeObject =>
        build (.after (.object (done.reverse ++ [(name, v)]) true)) frames rest
      | .members done name :: frames, _ =>
        (abandon (.object (done.reverse ++ [(name, v)]) false) frames, false)
    | .name done orEnd =>
      match token, orEnd with
      | .string name, _ => build (.colon done name) frames rest
      | .closeObject, true => build (.after (.object done.reverse true)) frames rest
      | _, _ => (abandon (.object done.reverse false) frames, false)
    | .colon done name =>
      match token with
      | .colon => build .value (.members done name :: frames) rest
      | _ => (abandon (.object (done.reverse ++ [(name, .fault)]) false) frames, false)
    | due =>
      let frames' : List Frame := match due with
        | .firstItem => .items [] :: frames
        | _ => frames
      match token with
      | .null => build (.after .null) frames' rest
      | .bool b => build (.after (.bool b)) frames' rest
      | .number n => build (.after (.number n)) frames' rest
      | .string s => build (.after (.string s)) frames' rest
      | .unreadable => build (.after .unreadable) frames' rest
      | .openArray => build .firstItem frames' rest
      | .openObject => build (.name [] true) frames' rest
      | .closeArray =>
        match due with
        | .firstItem => build (.after (.array [] true)) frames rest
        | _ => (abandon .fault frames', false)
      | _ => (abandon .fault frames', false)

/-- The draft of a text, and whether the text holds one whole value and no more. -/
def ofText (text : String) : Draft × Bool :=
  build .value [] (Token.scan text.toList)

mutual

/-- The draft of a value: nothing in it is open. -/
def ofJson : Json → Draft
  | .null => .null
  | .bool b => .bool b
  | .number n => .number n
  | .string s => .string s
  | .array items => .array (ofItems items) true
  | .object members => .object (ofMembers members) true

def ofItems : List Json → List Draft
  | [] => []
  | v :: rest => ofJson v :: ofItems rest

def ofMembers : List (String × Json) → List (String × Draft)
  | [] => []
  | (k, v) :: rest => (k, ofJson v) :: ofMembers rest

end

mutual

/-- The value of a draft nested less than `depth` deep, if nothing in it is open or without a
value. -/
def toJson? (depth : Nat) : Draft → Option Json
  | .null => some .null
  | .bool b => some (.bool b)
  | .number n => some (.number n)
  | .string s => some (.string s)
  | .unreadable => none
  | .array items closed =>
    if depth ≤ 1 ∨ !closed then none else (itemsToJson? (depth - 1) items).map .array
  | .object members closed =>
    if depth ≤ 1 ∨ !closed then none else (membersToJson? (depth - 1) members).map .object
  | .fault => none

def itemsToJson? (depth : Nat) : List Draft → Option (List Json)
  | [] => some []
  | v :: rest => do some ((← toJson? depth v) :: (← itemsToJson? depth rest))

def membersToJson? (depth : Nat) : List (String × Draft) → Option (List (String × Json))
  | [] => some []
  | (k, v) :: rest => do some ((k, ← toJson? depth v) :: (← membersToJson? depth rest))

end

mutual

/-- Whether a draft can be passed over: nothing in it is open. -/
def isWhole : Draft → Bool
  | .array items closed => closed && areWhole items
  | .object members closed => closed && areMembersWhole members
  | .fault => false
  | _ => true

/-- Whether every item can be passed over. -/
def areWhole : List Draft → Bool
  | [] => true
  | v :: rest => isWhole v && areWhole rest

/-- Whether every member can be passed over. -/
def areMembersWhole : List (String × Draft) → Bool
  | [] => true
  | (_, v) :: rest => isWhole v && areMembersWhole rest

end

end Draft

/-- How deep a text may be nested, less one. -/
def maxDepth : Nat := 128

/-- The value of a text, with the members of every object in the order of their names. -/
def parse? (text : String) : Option Json :=
  match Draft.ofText text with
  | (draft, true) => (draft.toJson? maxDepth).map Json.sorted
  | _ => none

end ChangeGate.Json
