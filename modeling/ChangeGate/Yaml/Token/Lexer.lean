import ChangeGate.Yaml.Token.Block
import ChangeGate.Yaml.Token.Directive
import ChangeGate.Yaml.Token.Plain
import ChangeGate.Yaml.Token.Quoted
import ChangeGate.Yaml.Token.Tag

/-!
From a text to its tokens. What a colon belongs to is known only when it is met, so the lexer
remembers, on every level of brackets, where a key could have started, and puts the tokens of a key
there afterwards. Outside brackets the columns in which lists and keys start make the structure.
-/

namespace ChangeGate.Yaml

/-- A place where a key could have started. -/
structure KeyStart where
  required : Bool
  position : Nat
  mark : Mark
deriving DecidableEq, Repr

/-- How many bytes a key may be from its colon. -/
def keyReach : Nat := 1024

structure Lexer where
  tokens : List Token := []
  /-- The column of the innermost indented list or keys, or -1. -/
  indent : Int := -1
  outer : List Int := []
  /-- Where a key could have started, for every bracket that is open, the innermost first. -/
  brackets : List (Option KeyStart) := []
  key : Option KeyStart := none
  keyAllowed : Bool := true
deriving Repr

namespace Lexer

def inFlow (s : Lexer) : Bool := !s.brackets.isEmpty

def push (s : Lexer) (token : Token) : Lexer := { s with tokens := token :: s.tokens }

/-- Puts a token after the first `position` tokens. -/
def pushAt (s : Lexer) (position : Nat) (token : Token) : Lexer :=
  { s with tokens := s.tokens.insertIdx (s.tokens.length - position) token }

def allowKey (s : Lexer) (allowed : Bool) : Lexer := { s with keyAllowed := allowed }

/-- The place where a key could have started, on the innermost level. -/
def keyStart? (s : Lexer) : Option KeyStart :=
  match s.brackets with
  | [] => s.key
  | k :: _ => k

/-- Replaces the place where a key could have started. -/
def setKeyStart (s : Lexer) (start : Option KeyStart) : Lexer :=
  match s.brackets with
  | [] => { s with key := start }
  | _ :: rest => { s with brackets := start :: rest }

/-- Gives up the place where a key could have started; one that is required must not be given
up. -/
def dropKey (s : Lexer) : Option Lexer :=
  if s.keyStart?.any (·.required) then none else some (s.setKeyStart none)

/-- Notes that a key may start at a mark. -/
def noteKey (s : Lexer) (m : Mark) : Option Lexer :=
  if s.keyAllowed then do
    let s ← s.dropKey
    let required := !s.inFlow && s.indent == m.column
    return s.setKeyStart (some ⟨required, s.tokens.length, m⟩)
  else some s

/-- Whether the colon of a key that starts there can no longer come at a mark. -/
def isStale (m : Mark) (start : KeyStart) : Bool :=
  start.mark.line < m.line || start.mark.index + keyReach < m.index

/-- What is left of a possible key at a mark. -/
def refresh (m : Mark) : Option KeyStart → Option (Option KeyStart)
  | none => some none
  | some start =>
    if isStale m start then (if start.required then none else some none) else some (some start)

/-- Gives up the keys whose colon can no longer come. -/
def dropStale (s : Lexer) (m : Mark) : Option Lexer := do
  let key ← refresh m s.key
  let brackets ← s.brackets.mapM (refresh m)
  return { s with key, brackets }

/-- Ends what is indented further than a column. -/
def unindent (s : Lexer) (column : Int) : Lexer :=
  if s.inFlow then s
  else
    let closed := (s.indent :: s.outer).takeWhile (column < ·)
    let (indent, outer) := match (s.indent :: s.outer).dropWhile (column < ·) with
      | [] => (-1, [])
      | indent :: outer => (indent, outer)
    { s with indent, outer, tokens := List.replicate closed.length .blockEnd ++ s.tokens }

/-- Starts what is indented to a column, if nothing is yet. -/
def indentTo (s : Lexer) (column position : Nat) (token : Token) : Lexer :=
  if !s.inFlow && s.indent < column then
    { s.pushAt position token with indent := column, outer := s.indent :: s.outer }
  else s

/-- Drops blanks, comments and line ends, and byte order marks at the start of lines. -/
def skip (s : Lexer) (inComment : Bool) : List Mark → Lexer × List Mark
  | [] => (s, [])
  | m :: rest =>
    if m.isBreak then skip (if s.inFlow then s else s.allowKey true) false rest
    else if inComment then skip s true rest
    else if m.column = 0 && m.char = byteOrderMark then skip s false rest
    else if m.char = ' ' || (m.char = '\t' && (s.inFlow || !s.keyAllowed)) then skip s false rest
    else if m.char = '#' then skip s true rest
    else (s, m :: rest)

/-- Ends all that is indented, before a directive, a mark of a document or the end. -/
def endBlocks (s : Lexer) : Option Lexer := do
  let s ← (s.unindent (-1)).dropKey
  return s.allowKey false

def openBracket (s : Lexer) (m : Mark) (token : Token) : Option Lexer := do
  let s ← s.noteKey m
  return ({ s with brackets := none :: s.brackets }.allowKey true).push token

def closeBracket (s : Lexer) (token : Token) : Option Lexer := do
  let s ← s.dropKey
  return ({ s with brackets := s.brackets.tail }.allowKey false).push token

/-- The start of something that is indented, where a key could start too. -/
def startBlock (s : Lexer) (m : Mark) (token : Token) : Option Lexer :=
  if s.inFlow then some s
  else if s.keyAllowed then some (s.indentTo m.column s.tokens.length token)
  else none

def item (s : Lexer) (m : Mark) : Option Lexer := do
  let s ← (← s.startBlock m .blockSequence).dropKey
  return (s.allowKey true).push .item

def explicitKey (s : Lexer) (m : Mark) : Option Lexer := do
  let s ← (← s.startBlock m .blockMapping).dropKey
  return (s.allowKey (!s.inFlow)).push .key

def value (s : Lexer) (m : Mark) : Option Lexer := do
  match s.keyStart? with
  | some start =>
    let s := (s.pushAt start.position .key).indentTo start.mark.column start.position .blockMapping
    return ((s.setKeyStart none).allowKey false).push .value
  | none =>
    let s ← s.startBlock m .blockMapping
    return (s.allowKey (!s.inFlow)).push .value

/-- A token that a key can start with, with what follows it. -/
def content (s : Lexer) (m : Mark) (found : Option (Token × List Mark)) :
    Option (Lexer × List Mark) := do
  let s ← s.noteKey m
  let (token, rest) ← found
  return ((s.allowKey false).push token, rest)

/-- Reads the name of an anchor or an alias. -/
def nameAfter (token : String → Token) (ms : List Mark) : Option (Token × List Mark) :=
  let name := ms.takeWhile Mark.isWord
  let rest := ms.dropWhile Mark.isWord
  let ends := blankNext rest || rest.head?.any ("?:,]\x7d%@`".toList.contains ·.char)
  if !name.isEmpty && ends then some (token (textOf name), rest) else none

/-- Whether a scalar without quotes can start here. -/
def startsPlain (inFlow : Bool) (m : Mark) (rest : List Mark) : Bool :=
  (!m.isBlank && !"-?:,[]\x7b\x7d#&*!|>'\"%@`".toList.contains m.char) ||
    (m.char == '-' && !rest.head?.any Mark.isBlank) ||
    (!inFlow && (m.char == '?' || m.char == ':') && !blankNext rest)

/-- Reads the token that starts at a mark which is no blank. -/
def read (s : Lexer) (m : Mark) (rest : List Mark) : Option (Lexer × List Mark) := do
  let after (s : Option Lexer) : Option (Lexer × List Mark) := s.map (·, rest)
  let ms := m :: rest
  if m.column = 0 && m.char = '%' then
    let s ← s.endBlocks
    let (token, rest) ← directiveToken rest
    return (s.push token, rest)
  else if tripleNext '-' ms then return ((← s.endBlocks).push .documentStart, rest.drop 2)
  else if tripleNext '.' ms then return ((← s.endBlocks).push .documentEnd, rest.drop 2)
  else if m.char = '[' then after (s.openBracket m .openSequence)
  else if m.char = '\x7b' then after (s.openBracket m .openMapping)
  else if m.char = ']' then after (s.closeBracket .closeSequence)
  else if m.char = '\x7d' then after (s.closeBracket .closeMapping)
  else if m.char = ',' then after (s.dropKey.map fun s => (s.allowKey true).push .comma)
  else if m.char = '-' && blankNext rest then after (s.item m)
  else if m.char = '?' && (s.inFlow || blankNext rest) then after (s.explicitKey m)
  else if m.char = ':' && (s.inFlow || blankNext rest) then after (s.value m)
  else if m.char = '*' then s.content m (nameAfter .alias rest)
  else if m.char = '&' then s.content m (nameAfter .anchor rest)
  else if m.char = '!' then
    s.content m
      ((tagToken s.inFlow ms).map fun (handle, suffix, rest) => (.tag handle suffix, rest))
  else if !s.inFlow && (m.char = '|' || m.char = '>') then
    let s ← s.dropKey
    let literal := m.char = '|'
    let (text, rest) ← blockScalar literal s.indent rest
    return ((s.allowKey true).push (.scalar text (if literal then .literal else .folded)), rest)
  else if m.char = '\'' || m.char = '"' then
    s.content m ((quotedScalar (m.char = '\'') rest).map fun (text, rest) =>
      (.scalar text .quoted, rest))
  else if startsPlain s.inFlow m rest then
    let s ← s.noteKey m
    let scalar ← plainScalar s.inFlow (s.indent + 1).toNat ms
    return ((s.allowKey scalar.endsLine).push (.scalar scalar.text .plain), scalar.rest)
  else none

/-- Reads tokens to the end of the text. Every token takes at least one mark, so `fuel` marks are
enough. -/
def readAll (s : Lexer) (ms : List Mark) : Nat → Option (List Token)
  | 0 => none
  | fuel + 1 => do
    match s.skip false ms with
    | (s, []) =>
      let s ← s.endBlocks
      return s.tokens.reverse
    | (s, m :: rest) =>
      let s ← s.dropStale m
      let (s, rest) ← (s.unindent m.column).read m rest
      s.readAll rest fuel

end Lexer

/-- The tokens of a text, or `none` if it has none. -/
def tokens? (text : String) : Option (List Token) :=
  let chars := text.toList
  if chars.all isAllowed then
    let ms := marks chars
    Lexer.readAll {} ms (ms.length + 1)
  else none

end ChangeGate.Yaml
