import ChangeGate.Text.Digits
import ChangeGate.Yaml.Token.Fold

/-!
Scalars in quotes. In single quotes a quote is written twice; in double quotes a backslash starts an
escape, and before a line end it joins the lines.
-/

namespace ChangeGate.Yaml

/-- Reads a scalar in single quotes further, after the opening quote. -/
def singleQuotedFrom (text : List Char) (gap : Gap) : List Mark → Option (String × List Mark)
  | [] => none
  | m :: rest =>
    if m.isBlank then singleQuotedFrom text (gap.addBlank m.char) rest
    else if m.isBreak then singleQuotedFrom text (gap.addBreak m.char) rest
    else if documentMarkNext (m :: rest) then none
    else
      let text := gap.folded ++ text
      if m.char = '\'' then
        match rest with
        | n :: rest' =>
          if n.char = '\'' then singleQuotedFrom ('\'' :: text) .nothing rest'
          else some (String.ofList text.reverse, rest)
        | [] => some (String.ofList text.reverse, [])
      else singleQuotedFrom (m.char :: text) .nothing rest

inductive Escape where
  | char (c : Char)
  | code (digits : Nat)
  | unknown
deriving DecidableEq, Repr

/-- The escape of a character after a backslash. -/
def escape (c : Char) : Escape :=
  match c with
  | '0' => .char '\x00'
  | 'a' => .char '\x07'
  | 'b' => .char '\x08'
  | 't' => .char '\t'
  | '\t' => .char '\t'
  | 'n' => .char '\n'
  | 'v' => .char '\x0b'
  | 'f' => .char '\x0c'
  | 'r' => .char '\r'
  | 'e' => .char '\x1b'
  | ' ' => .char ' '
  | '"' => .char '"'
  | '/' => .char '/'
  | '\\' => .char '\\'
  | 'N' => .char nextLine
  | '_' => .char '\u00a0'
  | 'L' => .char lineSeparator
  | 'P' => .char paragraphSeparator
  | 'x' => .code 2
  | 'u' => .code 4
  | 'U' => .code 8
  | _ => .unknown

/-- Where the reading of a scalar in double quotes stands. -/
inductive QuotedState where
  | content
  | escape
  /-- So many digits of a code are to come after the number read so far. -/
  | code (left value : Nat)
deriving DecidableEq, Repr

/-- Reads a scalar in double quotes further, after the opening quote. -/
def doubleQuotedFrom (state : QuotedState) (text : List Char) (gap : Gap) :
    List Mark → Option (String × List Mark)
  | [] => none
  | m :: rest =>
    match state with
    | .content =>
      if m.isBlank then doubleQuotedFrom .content text (gap.addBlank m.char) rest
      else if m.isBreak then doubleQuotedFrom .content text (gap.addBreak m.char) rest
      else if documentMarkNext (m :: rest) then none
      else
        let text := gap.folded ++ text
        if m.char = '"' then some (String.ofList text.reverse, rest)
        else if m.char = '\\' then doubleQuotedFrom .escape text .nothing rest
        else doubleQuotedFrom .content (m.char :: text) .nothing rest
    | .escape =>
      if m.isBreak then doubleQuotedFrom .content text (.breaks none []) rest
      else match escape m.char with
        | .char c => doubleQuotedFrom .content (c :: text) .nothing rest
        | .code digits => doubleQuotedFrom (.code digits 0) text .nothing rest
        | .unknown => none
    | .code left value =>
      match Text.hexDigit? m.char with
      | none => none
      | some d =>
        let value := 16 * value + d
        if left ≤ 1 then
          if h : value.isValidChar then
            doubleQuotedFrom .content (Char.ofNatAux value h :: text) .nothing rest
          else none
        else doubleQuotedFrom (.code (left - 1) value) text .nothing rest

/-- Reads a scalar in quotes, after the opening quote. -/
def quotedScalar (single : Bool) (ms : List Mark) : Option (String × List Mark) :=
  if single then singleQuotedFrom [] .nothing ms else doubleQuotedFrom .content [] .nothing ms

end ChangeGate.Yaml
