import ChangeGate.Binary64
import ChangeGate.Text.Quoted

/-!
Why a well-formed document does not have the wanted shape. The causes are the same for every
document format; a format has its own words for an absent value and its own form of numbers.
-/

namespace ChangeGate.Shape

/-- What stood in the document instead of the wanted value. -/
inductive Found where
  | bool (value : Bool)
  | integer (value : Int)
  /-- A whole number of more than 64 bits; `signed` if it is negative. -/
  | wide (value : Int)
  | real (value : Binary64)
  | string (value : String)
  | unit
  | sequence
  | map
deriving DecidableEq, Repr

structure Words where
  unit : String
  real : Binary64 → String

def Found.text (words : Words) : Found → String
  | .bool b => "boolean `" ++ (if b then "true" else "false") ++ "`"
  | .integer i => "integer `" ++ toString i ++ "`"
  | .wide i => "integer `" ++ toString i ++ "` as " ++ (if i < 0 then "i128" else "u128")
  | .real x => "floating point `" ++ words.real x ++ "`"
  | .string s => "string " ++ Text.quoted s
  | .unit => words.unit
  | .sequence => "sequence"
  | .map => "map"

inductive Fault where
  | invalidType (found : Found) (expected : String)
  /-- A value of the wanted kind that is out of its range. -/
  | invalidValue (found : Found) (expected : String)
  | invalidLength (length : Nat) (expected : String)
  | unknownVariant (name : String) (known : List String)
  | missingField (name : String)
  | duplicateField (name : String)
  | other (message : String)
deriving DecidableEq, Repr

/-- The known names, each in back quotes: two joined by "or", more as a list. -/
def oneOf : List String → String
  | [] => ""
  | [a] => "`" ++ a ++ "`"
  | [a, b] => "`" ++ a ++ "` or `" ++ b ++ "`"
  | names => "one of " ++ ", ".intercalate (names.map fun a => "`" ++ a ++ "`")

def Fault.message (words : Words) : Fault → String
  | .invalidType found expected =>
    "invalid type: " ++ found.text words ++ ", expected " ++ expected
  | .invalidValue found expected =>
    "invalid value: " ++ found.text words ++ ", expected " ++ expected
  | .invalidLength length expected =>
    "invalid length " ++ toString length ++ ", expected " ++ expected
  | .unknownVariant name known =>
    if known.isEmpty then "unknown variant `" ++ name ++ "`, there are no variants"
    else "unknown variant `" ++ name ++ "`, expected " ++ oneOf known
  | .missingField name => "missing field `" ++ name ++ "`"
  | .duplicateField name => "duplicate field `" ++ name ++ "`"
  | .other message => message

end ChangeGate.Shape
