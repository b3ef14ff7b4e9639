import ChangeGate.Table
import ChangeGate.Text.Blank
import ChangeGate.Text.Search

/-!
Expressions `${{ name }}` in command texts. An expression opens with a dollar sign and two braces
and closes with two braces, and the name between them has no closing brace. All expressions of a
text are replaced in one pass, so what a value contains is never read again, and text that is no
expression stands for itself.
-/

namespace ChangeGate.Interpolation

/-- Where the values of expressions come from. -/
structure Scope where
  vars : Table String
  parameters : Table String
  environment : String → Option String

/-- The rest of a list after a start, if it has that start. -/
def after? (start : List Char) (text : List Char) : Option (List Char) :=
  if start.isPrefixOf text then some (text.drop start.length) else none

/-- The value of a name. After `env.` it is a variable or else of the process, after `matrix.` it is
of an axis, and otherwise it is a variable. What has no value is empty. -/
def Scope.value (scope : Scope) (name : List Char) : String :=
  match after? "env.".toList name with
  | some rest =>
    let name := String.ofList rest
    ((scope.vars.get? name).or (scope.environment name)).getD ""
  | none =>
    match after? "matrix.".toList name with
    | some rest => (scope.parameters.get? (String.ofList rest)).getD ""
    | none => (scope.vars.get? (String.ofList name)).getD ""

/-- An expression: blanks before and after the name are not part of it, and the name is as short as
it can be. -/
def expression : Text.Search where
  opening := '$'
  parts :=
    [.one (· == '\x7b'), .one (· == '\x7b'), .run Text.isBlank 0 true, .run (· != '\x7d') 1 false,
      .run Text.isBlank 0 true, .one (· == '\x7d'), .one (· == '\x7d')]

/-- The name in an expression, which its fourth part takes in. -/
def nameOf (taken : List (List Char)) : List Char := Text.trim (taken[3]?.getD [])

/-- The text with every expression replaced by its value. -/
def interpolate (scope : Scope) (text : String) : String :=
  String.ofList <|
    expression.replaceAll (fun taken => (scope.value (nameOf taken)).toList) text.toList

end ChangeGate.Interpolation
