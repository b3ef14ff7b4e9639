import ChangeGate.Text.Digits
import ChangeGate.Text.Utf8
import ChangeGate.Yaml.Mark

/-!
Tags. A tag is written in full between angle brackets, or as a handle and a suffix; a percent sign
with two digits stands for a byte.
-/

namespace ChangeGate.Yaml

/-- Whether a character may stand in a tag. Commas and square brackets may do so between angle
brackets only. -/
def isTagChar (verbatim : Bool) (m : Mark) : Bool :=
  m.isWord || ";/?:@&=+$.!~*'()%".toList.contains m.char ||
    (verbatim && ",[]".toList.contains m.char)

/-- The number of bytes of the character whose first byte is given. -/
def byteCount? (lead : Nat) : Option Nat :=
  if lead < 0x80 then some 1
  else if lead / 32 = 6 then some 2
  else if lead / 16 = 14 then some 3
  else if lead / 8 = 30 then some 4
  else none

/-- Reads the characters of a tag; `due` is the number of bytes that still belong to the last
character. -/
def tagBytes (verbatim : Bool) (due : Nat) (bytes : List UInt8) :
    List Mark → Option (List UInt8 × List Mark)
  | [] => if due = 0 then some (bytes, []) else none
  | m :: rest =>
    if m.char = '%' then
      match rest with
      | a :: b :: rest' =>
        match Text.hexDigit? a.char, Text.hexDigit? b.char with
        | some high, some low =>
          let octet := 16 * high + low
          if due = 0 then
            match byteCount? octet with
            | none => none
            | some n => tagBytes verbatim (n - 1) (bytes ++ [UInt8.ofNat octet]) rest'
          else if octet / 64 = 2 then
            tagBytes verbatim (due - 1) (bytes ++ [UInt8.ofNat octet]) rest'
          else none
        | _, _ => none
      | _ => none
    else if due ≠ 0 then none
    else if isTagChar verbatim m then
      tagBytes verbatim 0 (bytes ++ Text.Utf8.encode [m.char]) rest
    else some (bytes, m :: rest)

/-- Reads the part of a tag after `start`, of which the exclamation mark is left out. There must be
something in it. -/
def tagText (verbatim : Bool) (start : List Mark) (ms : List Mark) :
    Option (String × List Mark) := do
  let (bytes, rest) ← tagBytes verbatim 0 [] ms
  if start.isEmpty && bytes.isEmpty then none
  else
    let text := Text.Utf8.lenient (Text.Utf8.encode ((start.drop 1).map Mark.char) ++ bytes)
    some (String.ofList text, rest)

/-- Reads an exclamation mark, the letters after it, and one more exclamation mark if there is
one. -/
def tagHandle (ms : List Mark) : Option (List Mark × List Mark) :=
  match ms with
  | [] => none
  | m :: rest =>
    if m.char ≠ '!' then none
    else
      let word := rest.takeWhile Mark.isWord
      match rest.dropWhile Mark.isWord with
      | n :: rest' =>
        if n.char = '!' then some (m :: (word ++ [n]), rest') else some (m :: word, n :: rest')
      | [] => some (m :: word, [])

/-- Whether a handle ends in an exclamation mark other than its first. -/
def isClosedHandle (handle : List Mark) : Bool :=
  1 < handle.length && handle.getLast?.any (·.char == '!')

/-- Reads a tag: its handle and its suffix. A tag in full has an empty handle. -/
def tagParts (ms : List Mark) : Option (String × String × List Mark) := do
  match ms with
  | _ :: n :: rest =>
    if n.char = '<' then
      let (suffix, rest) ← tagText true [] rest
      match rest with
      | m :: rest => if m.char = '>' then return ("", suffix, rest) else none
      | [] => none
  | _ => pure ()
  let (handle, rest) ← tagHandle ms
  if isClosedHandle handle then
    let (suffix, rest) ← tagText false [] rest
    return (textOf handle, suffix, rest)
  else
    let (suffix, rest) ← tagText false handle rest
    if suffix.isEmpty then return ("", "!", rest) else return ("!", suffix, rest)

/-- Reads the tag that starts here, with what has to follow it: a blank, a line end, or inside
brackets a comma. -/
def tagToken (inFlow : Bool) (ms : List Mark) : Option (String × String × List Mark) := do
  let (handle, suffix, rest) ← tagParts ms
  if blankNext rest || (inFlow && next ',' rest) then return (handle, suffix, rest) else none

end ChangeGate.Yaml
