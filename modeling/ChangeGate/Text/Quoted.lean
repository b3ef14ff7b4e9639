import ChangeGate.Text.Digits
import ChangeGate.Text.Hidden
import ChangeGate.Table

/-!
Quoted text as it stands inside messages: between double quotes, with backslash escapes for quotes,
backslashes and the common controls, and with the code point in braces for any other hidden
character.
-/

namespace ChangeGate.Text

def quoteChar (c : Char) : List Char :=
  if c = '"' then ['\\', '"']
  else if c = '\\' then ['\\', '\\']
  else if c = '\n' then ['\\', 'n']
  else if c = '\r' then ['\\', 'r']
  else if c = '\t' then ['\\', 't']
  else if c.toNat = 0 then ['\\', '0']
  else if isHidden c then '\\' :: 'u' :: '\x7b' :: (hexText c.toNat ++ ['\x7d'])
  else [c]

def quoted (text : String) : String :=
  String.ofList ('"' :: (text.toList.flatMap quoteChar ++ ['"']))

/-- The quoted form of a table of texts: its entries between braces. -/
def quotedTable (table : Table String) : String :=
  let entries := table.entries.map fun e => quoted e.1 ++ ": " ++ quoted e.2
  "\x7b" ++ ", ".intercalate entries ++ "\x7d"

end ChangeGate.Text
