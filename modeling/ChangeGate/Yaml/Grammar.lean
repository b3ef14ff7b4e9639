import ChangeGate.Yaml.Node

/-!
From tokens to the tree of a document. Where a node is due and none comes, an empty scalar stands in
for it. Anchors get their numbers here, and an alias must name an anchor that came before it.
-/

namespace ChangeGate.Yaml

/-- What is known and what is left while a tree is being read. -/
structure Progress where
  tokens : List Token
  handles : List (String × String)
  /-- The names of anchors with the numbers they stand for now. -/
  anchors : List (String × Nat) := []
deriving Repr

namespace Progress

def leaving (s : Progress) (tokens : List Token) : Progress := { s with tokens }

/-- Gives a name the number of an anchor: the number of different names that came before. -/
def addAnchor (s : Progress) (name : String) : Nat × Progress :=
  let number := s.anchors.length
  (number, { s with anchors := (name, number) :: s.anchors.filter (·.1 ≠ name) })

def fullTag (s : Progress) (handle suffix : String) : Option String :=
  if handle.isEmpty then some suffix else (s.handles.lookup handle).map (· ++ suffix)

/-- Reads the anchor and the tag before a node, in either order. Answers also whether there was
any. -/
def properties (s : Progress) : Option (Properties × Bool × Progress) := do
  match s.tokens with
  | .anchor name :: .tag handle suffix :: rest =>
    let (number, s) := s.addAnchor name
    return (⟨some number, some (← s.fullTag handle suffix)⟩, true, s.leaving rest)
  | .tag handle suffix :: .anchor name :: rest =>
    let (number, s) := s.addAnchor name
    return (⟨some number, some (← s.fullTag handle suffix)⟩, true, s.leaving rest)
  | .anchor name :: rest =>
    let (number, s) := s.addAnchor name
    return (⟨some number, none⟩, true, s.leaving rest)
  | .tag handle suffix :: rest =>
    return (⟨none, some (← s.fullTag handle suffix)⟩, true, s.leaving rest)
  | _ => return ({}, false, s)

/-- Whether the next token is one of those after which a due node is missing. -/
def missing (s : Progress) (ends : List Token) : Bool :=
  match s.tokens with
  | [] => false
  | t :: _ => ends.contains t

end Progress

/-- The tokens before which the item of an indented list may be missing. -/
def itemEnds : List Token := [.item, .blockEnd]

/-- The tokens before which the item of a list that is not indented may be missing. -/
def plainItemEnds : List Token := [.item, .key, .value, .blockEnd]

/-- The tokens before which a key or a value of an indented mapping may be missing. -/
def entryEnds : List Token := [.key, .value, .blockEnd]

/-- The tokens before which a value in brackets may be missing. -/
def flowValueEnds (close : Token) : List Token := [.comma, close]

/-- The tokens before which a key in brackets may be missing. -/
def flowKeyEnds (close : Token) : List Token := [.value, .comma, close]

mutual

/-- Reads a node. `block` says whether its structure may be indented, and `unindented` whether it
may be a list whose items are no further indented than the key before it. -/
def readNode (block unindented : Bool) (s : Progress) : Nat → Option (Node × Progress)
  | 0 => none
  | fuel + 1 =>
    match s.tokens with
    | .alias name :: rest =>
      (s.anchors.lookup name).map fun number => (.alias number, s.leaving rest)
    | _ => do
      let (p, some?, s) ← s.properties
      match s.tokens with
      | .item :: _ =>
        if unindented then
          let (items, s) ← readItems false s fuel
          return (.sequence p items, s)
        else if some? then return (.scalar p "" .plain, s)
        else none
      | .scalar text style :: rest =>
        let tag := if p.tag = some "!" then none else p.tag
        return (.scalar { p with tag } text style, s.leaving rest)
      | .openSequence :: rest =>
        let (items, s) ← readFlowItems true (s.leaving rest) fuel
        return (.sequence p items, s)
      | .openMapping :: rest =>
        let (entries, s) ← readFlowEntries true (s.leaving rest) fuel
        return (.mapping p entries, s)
      | .blockSequence :: rest =>
        if block then
          let (items, s) ← readItems true (s.leaving rest) fuel
          return (.sequence p items, s)
        else if some? then return (.scalar p "" .plain, s)
        else none
      | .blockMapping :: rest =>
        if block then
          let (entries, s) ← readEntries (s.leaving rest) fuel
          return (.mapping p entries, s)
        else if some? then return (.scalar p "" .plain, s)
        else none
      | _ => if some? then return (.scalar p "" .plain, s) else none

def readOptional (block unindented : Bool) (ends : List Token) (s : Progress) :
    Nat → Option (Node × Progress)
  | 0 => none
  | fuel + 1 => if s.missing ends then some (.empty, s) else readNode block unindented s fuel

/-- Reads the items of a list that is not in brackets. -/
def readItems (indented : Bool) (s : Progress) : Nat → Option (List Node × Progress)
  | 0 => none
  | fuel + 1 =>
    match s.tokens with
    | .item :: rest => do
      let ends := if indented then itemEnds else plainItemEnds
      let (item, s) ← readOptional true false ends (s.leaving rest) fuel
      let (items, s) ← readItems indented s fuel
      return (item :: items, s)
    | .blockEnd :: rest => some ([], if indented then s.leaving rest else s)
    | _ => if indented then none else some ([], s)

/-- Reads the entries of a mapping that is not in brackets. -/
def readEntries (s : Progress) : Nat → Option (List (Node × Node) × Progress)
  | 0 => none
  | fuel + 1 =>
    match s.tokens with
    | .key :: rest => do
      let (key, s) ← readOptional true true entryEnds (s.leaving rest) fuel
      let (value, s) ← readValue s fuel
      let (entries, s) ← readEntries s fuel
      return ((key, value) :: entries, s)
    | .blockEnd :: rest => some ([], s.leaving rest)
    | _ => none

/-- Reads the value after a key that is not in brackets. -/
def readValue (s : Progress) : Nat → Option (Node × Progress)
  | 0 => none
  | fuel + 1 =>
    match s.tokens with
    | .value :: rest => readOptional true true entryEnds (s.leaving rest) fuel
    | _ => some (.empty, s)

/-- Reads the value after a key in brackets. -/
def readFlowValue (close : Token) (s : Progress) : Nat → Option (Node × Progress)
  | 0 => none
  | fuel + 1 =>
    match s.tokens with
    | .value :: rest => readOptional false false (flowValueEnds close) (s.leaving rest) fuel
    | _ => some (.empty, s)

/-- Reads the only pair of a mapping that is written in a list without brackets of its own. A token
before which the key is missing counts as the key. -/
def readPair (s : Progress) : Nat → Option (Node × Progress)
  | 0 => none
  | fuel + 1 => do
    let ends := flowKeyEnds .closeSequence
    let (key, s) ←
      if s.missing ends then some (.empty, s.leaving s.tokens.tail) else readNode false false s fuel
    let (value, s) ← readFlowValue .closeSequence s fuel
    return (.mapping {} [(key, value)], s)

/-- Reads the items of a list in brackets. -/
def readFlowItems (first : Bool) (s : Progress) : Nat → Option (List Node × Progress)
  | 0 => none
  | fuel + 1 => do
    match s.tokens with
    | .closeSequence :: rest => return ([], s.leaving rest)
    | tokens =>
      let s ← if first then some s else match tokens with
        | .comma :: rest => some (s.leaving rest)
        | _ => none
      match s.tokens with
      | .closeSequence :: rest => return ([], s.leaving rest)
      | .key :: rest =>
        let (item, s) ← readPair (s.leaving rest) fuel
        let (items, s) ← readFlowItems false s fuel
        return (item :: items, s)
      | _ =>
        let (item, s) ← readNode false false s fuel
        let (items, s) ← readFlowItems false s fuel
        return (item :: items, s)

/-- Reads the entries of a mapping in brackets. -/
def readFlowEntries (first : Bool) (s : Progress) : Nat → Option (List (Node × Node) × Progress)
  | 0 => none
  | fuel + 1 => do
    match s.tokens with
    | .closeMapping :: rest => return ([], s.leaving rest)
    | tokens =>
      let s ← if first then some s else match tokens with
        | .comma :: rest => some (s.leaving rest)
        | _ => none
      match s.tokens with
      | .closeMapping :: rest => return ([], s.leaving rest)
      | .key :: rest =>
        let (key, s) ← readOptional false false (flowKeyEnds .closeMapping) (s.leaving rest) fuel
        let (value, s) ← readFlowValue .closeMapping s fuel
        let (entries, s) ← readFlowEntries false s fuel
        return ((key, value) :: entries, s)
      | _ =>
        let (key, s) ← readNode false false s fuel
        let (entries, s) ← readFlowEntries false s fuel
        return ((key, .empty) :: entries, s)

end

/-- The handles of tags that need no directive. -/
def defaultHandles : List (String × String) := [("!", "!"), ("!!", "tag:yaml.org,2002:")]

/-- Reads the directives before a document. The version may be given once, and each handle once. -/
def readDirectives (version : Bool) (handles : List (String × String)) :
    List Token → Option (Bool × List (String × String) × List Token)
  | .version major minor :: rest =>
    if version || major ≠ 1 || (minor ≠ 1 && minor ≠ 2) then none
    else readDirectives true handles rest
  | .tagHandle handle start :: rest =>
    if (handles.lookup handle).isSome then none
    else readDirectives version ((handle, start) :: handles) rest
  | tokens => some (version || !handles.isEmpty, handles, tokens)

/-- Reads the tree of the first document. -/
def readRoot (tokens : List Token) (fuel : Nat) : Option (Node × Progress) := do
  let (found, handles, tokens) ← readDirectives false [] tokens
  let s : Progress := ⟨tokens, handles ++ defaultHandles, []⟩
  match tokens with
  | [] => if found then none else return (.empty, s)
  | .documentStart :: rest =>
    match rest with
    | [] => return (.empty, s.leaving [])
    | .version .. :: _ => return (.empty, s.leaving rest)
    | .tagHandle .. :: _ => return (.empty, s.leaving rest)
    | .documentStart :: _ => return (.empty, s.leaving rest)
    | .documentEnd :: _ => return (.empty, s.leaving rest)
    | _ => readNode true false (s.leaving rest) fuel
  | _ => if found then none else readNode true false s fuel

/-- The document of a text that holds at most one, or `none` if the text is malformed. -/
def document? (text : String) : Option Document := do
  let tokens ← tokens? text
  let (root, s) ← readRoot tokens (3 * tokens.length + 4)
  if s.tokens.all (· == .documentEnd) then return .ofRoot root else none

end ChangeGate.Yaml
