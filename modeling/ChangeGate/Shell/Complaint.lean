import ChangeGate.Shell.Reader
import ChangeGate.Shell.State

/-!
What the two forms of the language say of a text that cannot be read.
-/

namespace ChangeGate.Shell

/-- More steps than the reading of a text takes. -/
def readingSteps (cs : List Char) : Nat := 20 * (cs.length + 10)

/-- The name of a token in messages of the standard form: words that are not reserved are all
alike. -/
def shownToken (what : String) : String :=
  let reserved := ["if", "for", "while", "until", "case", "in", "!", "\x7b"]
  if what = endOfFile || what = "newline" then what
  else if isCloser what || reserved.contains what || what.toList.head?.any endsWord then
    "\"" ++ what ++ "\""
  else "word"

/-- The message for a fault of reading in the standard form. -/
def SyntaxFault.standardMessage : SyntaxFault → String
  | .unclosed mark =>
    if mark = "`" then "Syntax error: EOF in backquote substitution"
    else if mark = ")" then "Syntax error: Missing '))'"
    else if mark = "\x7d" then "Syntax error: Missing '\x7d'"
    else "Syntax error: Unterminated quoted string"
  | .unexpected what needed =>
    let hint := (needed.map fun word => " (expecting \"" ++ word ++ "\")").getD ""
    "Syntax error: " ++ shownToken what ++ " unexpected" ++ hint
  | .badExpansion => "Bad substitution"
  | .badVariable => "Syntax error: Bad for loop variable"
  | .tooLong => "Syntax error: Unterminated quoted string"

/-- The lines that tell of a fault of reading. -/
def SyntaxFault.complaints (fault : SyntaxFault) (setting : Setting) (s : State) (line : Nat) :
    List String :=
  let ending := if setting.whole.getLast? = some '\n' then 0 else 1
  match s.dialect, fault with
  | .standard, .unexpected what _ =>
    let line := if what = endOfFile then setting.lineEnds + 1 else line
    [s.name ++ ": " ++ toString line ++ ": " ++ fault.standardMessage]
  | .standard, _ => [s.name ++ ": " ++ toString line ++ ": " ++ fault.standardMessage]
  | .extended, .unexpected what _ =>
    let start (n : Nat) : String := s.name ++ ": -c: line " ++ toString n ++ ": "
    if what = endOfFile then
      [start (setting.lineEnds + 1 + ending) ++ "syntax error: unexpected end of file"]
    else
      let text := ((Text.pieces '\n' setting.whole)[line - 1]?).getD []
      [start line ++ "syntax error near unexpected token `" ++ what ++ "'",
        start line ++ "`" ++ String.ofList text ++ "'"]
  | .extended, .unclosed mark =>
    [s.name ++ ": -c: line " ++ toString line ++ ": unexpected EOF while looking for matching `" ++
      mark ++ "'"]
  | .extended, _ => [s.name ++ ": line " ++ toString line ++ ": bad substitution"]

end ChangeGate.Shell
