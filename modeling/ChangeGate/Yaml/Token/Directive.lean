import ChangeGate.Yaml.Token
import ChangeGate.Yaml.Token.Block
import ChangeGate.Yaml.Token.Tag

/-!
Directives: lines before a document that state the version of the format or give a tag handle its
meaning.
-/

namespace ChangeGate.Yaml

/-- Reads a number of at most nine digits. -/
def versionNumber (ms : List Mark) : Option (Nat × List Mark) :=
  let digits := ms.takeWhile fun m => m.char.isDigit
  if digits.isEmpty || 9 < digits.length then none
  else
    some (digits.foldl (fun n m => 10 * n + (Text.decimalDigit? m.char).getD 0) 0,
      ms.dropWhile fun m => m.char.isDigit)

/-- Reads a version: two numbers with a point between them. -/
def versionToken (ms : List Mark) : Option (Token × List Mark) := do
  let (major, ms) ← versionNumber (ms.dropWhile Mark.isBlank)
  if !next '.' ms then none
  let (minor, ms) ← versionNumber (ms.drop 1)
  return (.version major minor, ms)

/-- Reads a handle and what it stands for. -/
def handleToken (ms : List Mark) : Option (Token × List Mark) := do
  let (handle, ms) ← tagHandle (ms.dropWhile Mark.isBlank)
  if handle.length ≠ 1 && !isClosedHandle handle then none
  if !ms.head?.any Mark.isBlank then none
  let (start, ms) ← tagText true [] (ms.dropWhile Mark.isBlank)
  if blankNext ms then return (.tagHandle (textOf handle) start, ms) else none

/-- Reads a directive after its percent sign, with the end of its line. -/
def directiveToken (ms : List Mark) : Option (Token × List Mark) := do
  let name := textOf (ms.takeWhile Mark.isWord)
  let ms := ms.dropWhile Mark.isWord
  if !blankNext ms then none
  let (token, ms) ←
    if name = "YAML" then versionToken ms else if name = "TAG" then handleToken ms else none
  return (token, ← endOfLine? ms)

end ChangeGate.Yaml
