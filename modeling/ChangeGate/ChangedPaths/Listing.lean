import ChangeGate.Error
import ChangeGate.Text.Blank
import ChangeGate.Text.Lines
import ChangeGate.Text.Utf8

/-!
Lists of changed paths that are written down: one path a line. Blanks around a path do not count,
nor do blank lines and lines that start with a hash.
-/

namespace ChangeGate.ChangedPaths

def isPath (line : List Char) : Bool := !line.isEmpty && line.head? != some '#'

def ofChars (text : List Char) : List (List Char) :=
  ((Text.lines text).map Text.trim).filter isPath

def ofText (text : String) : List String := (ofChars text.toList).map String.ofList

def ofBytes (bytes : List UInt8) : Except Error (List String) :=
  match Text.Utf8.strict? bytes with
  | some text => .ok ((ofChars text).map String.ofList)
  | none => .error (.io .invalidText)

end ChangeGate.ChangedPaths
