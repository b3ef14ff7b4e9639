import ChangeGate.Text.Lines
import ChangeGate.Text.Utf8

/-!
What a task writes, as lines. A stream is read line by line up to the first line that is not made of
characters; that line and all after it are lost.
-/

namespace ChangeGate

inductive Stream where
  | output
  | messages
deriving DecidableEq, Repr

structure OutputLine where
  stream : Stream
  text : String
deriving DecidableEq, Repr

/-- The texts of lines up to the first that is not made of characters. -/
def readableLines : List (List UInt8) → List String
  | [] => []
  | line :: rest =>
    match Text.Utf8.strict? line with
    | some text => String.ofList text :: readableLines rest
    | none => []

def streamLines (bytes : List UInt8) : List String :=
  readableLines (Text.linesWith 0x0A 0x0D bytes)

end ChangeGate
