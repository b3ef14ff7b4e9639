import ChangeGate.Yaml.Token.Fold

/-!
Scalars without quotes. Such a scalar ends before a colon with a blank after it, before a hash
with a blank before it, where the indentation ends, at a mark of a document, and inside brackets
also at a comma or a bracket.
-/

namespace ChangeGate.Yaml

/-- Whether a character is a comma or a bracket. -/
def isFlowIndicator (c : Char) : Bool :=
  c == ',' || c == '[' || c == ']' || c == '\x7b' || c == '\x7d'

/-- Whether a colon that stands before something cannot be part of a scalar inside brackets. -/
def colonClashes (rest : List Mark) : Bool :=
  match rest with
  | [] => false
  | m :: _ => isFlowIndicator m.char || m.char == '?'

/-- A scalar, what follows it, and whether a line has ended in between. -/
structure PlainScalar where
  text : String
  rest : List Mark
  endsLine : Bool

/-- The scalar with the given text, the last character first. -/
def PlainScalar.of (text : List Char) (gap : Gap) (rest : List Mark) : PlainScalar :=
  ⟨String.ofList text.reverse, rest, gap.hasBreak⟩

def Gap.isSome : Gap → Bool
  | .blanks [] => false
  | _ => true

/-- Reads a scalar further. `indent` is the least column in which its lines may start. -/
def plainFrom (inFlow : Bool) (indent : Nat) (text : List Char) (gap : Gap) :
    List Mark → Option PlainScalar
  | [] => some (.of text gap [])
  | m :: rest =>
    if m.isBlank then
      if gap.hasBreak && m.column < indent && m.char == '\t' then none
      else plainFrom inFlow indent text (gap.addBlank m.char) rest
    else if m.isBreak then plainFrom inFlow indent text (gap.addBreak m.char) rest
    else if gap.isSome &&
        ((!inFlow && m.column < indent) || documentMarkNext (m :: rest) || m.char == '#') then
      some (.of text gap (m :: rest))
    else if inFlow && m.char == ':' && colonClashes rest then none
    else if (m.char == ':' && blankNext rest) || (inFlow && isFlowIndicator m.char) then
      some (.of text gap (m :: rest))
    else plainFrom inFlow indent (m.char :: (gap.folded ++ text)) .nothing rest

def plainScalar (inFlow : Bool) (indent : Nat) (ms : List Mark) : Option PlainScalar :=
  plainFrom inFlow indent [] .nothing ms

end ChangeGate.Yaml
