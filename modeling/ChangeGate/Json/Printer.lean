import ChangeGate.Json.Basic
import ChangeGate.Text.Digits

/-!
JSON text: compact, with nothing between the parts, and indented by two blanks a level.
-/

namespace ChangeGate.Json

/-- The written form of a character inside a text: quotes, backslashes and control characters are
escaped, all else stands for itself. -/
def escape (c : Char) : List Char :=
  if c = '"' then ['\\', '"']
  else if c = '\\' then ['\\', '\\']
  else if c = '\n' then ['\\', 'n']
  else if c = '\r' then ['\\', 'r']
  else if c = '\t' then ['\\', 't']
  else if c.toNat = 8 then ['\\', 'b']
  else if c.toNat = 12 then ['\\', 'f']
  else if c.toNat < 32 then '\\' :: 'u' :: Text.hexDigits c.toNat 4
  else [c]

def quote (text : List Char) : List Char :=
  '"' :: (text.flatMap escape ++ ['"'])

def Number.text : Number → List Char
  | .int i => (toString i).toList
  | .real x => match x with
    | .finite .. => x.toCompact.toList
    | _ => "null".toList

mutual

def chars : Json → List Char
  | .null => "null".toList
  | .bool true => "true".toList
  | .bool false => "false".toList
  | .number n => n.text
  | .string s => quote s.toList
  | .array items => '[' :: charsItems items
  | .object members => '{' :: charsMembers members

/-- The text of the items and the closing bracket. -/
def charsItems : List Json → List Char
  | [] => [']']
  | [v] => chars v ++ [']']
  | v :: rest => chars v ++ ',' :: charsItems rest

/-- The text of the members and the closing brace. -/
def charsMembers : List (String × Json) → List Char
  | [] => ['}']
  | [(k, v)] => quote k.toList ++ ':' :: (chars v ++ ['}'])
  | (k, v) :: rest => quote k.toList ++ ':' :: (chars v ++ ',' :: charsMembers rest)

end

def compact (value : Json) : String := String.ofList (chars value)

/-- A line feed and the blanks of a level. -/
def lineBreak (level : Nat) : List Char := '\n' :: List.replicate (2 * level) ' '

mutual

/-- The indented text of a value at a level of nesting. -/
def indentedChars (level : Nat) : Json → List Char
  | .array [] => "[]".toList
  | .array items => '[' :: indentedItems (level + 1) items ++ (lineBreak level ++ [']'])
  | .object [] => "\x7b\x7d".toList
  | .object members => '{' :: indentedMembers (level + 1) members ++ (lineBreak level ++ ['}'])
  | .null => "null".toList
  | .bool true => "true".toList
  | .bool false => "false".toList
  | .number n => n.text
  | .string s => quote s.toList

/-- The items, each on a line of its own. -/
def indentedItems (level : Nat) : List Json → List Char
  | [] => []
  | [v] => lineBreak level ++ indentedChars level v
  | v :: rest => lineBreak level ++ (indentedChars level v ++ ',' :: indentedItems level rest)

/-- The members, each on a line of its own. -/
def indentedMembers (level : Nat) : List (String × Json) → List Char
  | [] => []
  | [(k, v)] => lineBreak level ++ (quote k.toList ++ ": ".toList ++ indentedChars level v)
  | (k, v) :: rest =>
    lineBreak level ++ (quote k.toList ++ ": ".toList ++ (indentedChars level v ++
      ',' :: indentedMembers level rest))

end

def indented (value : Json) : String := String.ofList (indentedChars 0 value)

end ChangeGate.Json
