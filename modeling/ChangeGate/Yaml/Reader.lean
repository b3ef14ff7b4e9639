import ChangeGate.Bits
import ChangeGate.Table
import ChangeGate.Yaml.Grammar
import ChangeGate.Yaml.Resolve

/-!
Reading typed values from documents. A reader walks a tree from left to right and stops at the first
node of a wrong shape; the error says what is wrong and where, as the keys and places that lead
there.
-/

namespace ChangeGate.Yaml

/-- The way from the root of a document to a node. -/
inductive Path where
  | root
  | item (outer : Path) (index : Nat)
  | entry (outer : Path) (key : String)
  | unnamed (outer : Path)
deriving DecidableEq, Repr

mutual

def Path.text : Path → String
  | .root => "."
  | .item outer index => outer.text ++ "[" ++ toString index ++ "]"
  | .entry outer key => outer.beforeKey ++ key
  | .unnamed outer => outer.beforeKey ++ "?"

/-- The text of a path in front of a key. -/
def Path.beforeKey : Path → String
  | .root => ""
  | .item outer index => outer.text ++ "[" ++ toString index ++ "]."
  | .entry outer key => outer.beforeKey ++ key ++ "."
  | .unnamed outer => outer.beforeKey ++ "?."

end

/-- Why a value could not be read from a document. -/
inductive ReadError where
  | shape (path : Path) (fault : Shape.Fault)
  /-- Aliases have been followed more often than the size of the document allows. -/
  | repetition
deriving DecidableEq, Repr

def words : Shape.Words := ⟨"unit value", Binary64.toPositional⟩

/-- The message of an error. A path that is written as the root, which the value of a key `.` there
is too, goes without saying. -/
def ReadError.message : ReadError → String
  | .shape path fault =>
    let cause := fault.message words
    if path.text = Path.root.text then cause else path.text ++ ": " ++ cause
  | .repetition => "repetition limit exceeded"

/-- What is read in the course of a document, with the number of aliases that may still be
followed. -/
abbrev Reading (α : Type) := StateT Nat (Except ReadError) α

/-- What is read, with another error if there is one. -/
def Reading.mapError {α : Type} (f : ReadError → ReadError) (reading : Reading α) : Reading α :=
  fun left => (reading left).mapError f

/-- How often the aliases of a document may be followed, for each token of its tree. -/
def repetitionLimit : Nat := 100

abbrev Reader (α : Type) := Document → Path → Node → Reading α

namespace Reader

def failAt {α : Type} (path : Path) (fault : Shape.Fault) : Reading α :=
  throw (.shape path fault)

/-- The node that a node is or stands for. -/
def follow (doc : Document) (node : Node) : Reading Node := do
  match node with
  | .alias _ =>
    match ← get with
    | 0 => throw .repetition
    | left + 1 => set left
  | _ => pure ()
  return doc.target node

/-- What is wrong with a node that is not of the wanted kind. -/
def mismatch (expected : String) : Node → Shape.Fault
  | .scalar p text style =>
    match meaning p.tag text style with
    | .ok found => .invalidType found expected
    | .error wanted => .invalidValue (.string text) wanted
  | .sequence .. => .invalidType .sequence expected
  | .mapping .. => .invalidType .map expected
  | .alias _ => .other "unknown anchor"

/-- Reads the text of a scalar, whatever it means. -/
def string (expected : String) : Reader String := fun doc path node => do
  match ← follow doc node with
  | .scalar _ text _ => return text
  | node => failAt path (mismatch expected node)

/-- Whether a scalar can be of the kind of a tag: it is not in quotes and no folded block, and in a
literal block only with that tag. -/
def canBe (kind : String) (p : Properties) (style : Style) : Bool :=
  match style with
  | .plain => true
  | .literal => p.tag == some kind
  | _ => false

def bool : Reader Bool := fun doc path node => do
  let node ← follow doc node
  let fail := failAt path (mismatch "a boolean" node)
  match node with
  | .scalar p text style =>
    match truth? text with
    | some b => if canBe boolTag p style then return b else fail
    | none => fail
  | _ => fail

/-- Reads a number without a sign, up to a bound. -/
def number (greatest : Nat) (expected : String) : Reader Nat := fun doc path node => do
  let node ← follow doc node
  let fail := failAt path (mismatch expected node)
  match node with
  | .scalar p text style =>
    match unsigned? text.toList with
    | some n =>
      if !canBe intTag p style || Bits.values 64 ≤ n then fail
      else if n ≤ greatest then return n
      else failAt path (.invalidValue (.integer n) expected)
    | none => fail
  | _ => fail

def word : Reader Nat := number (Bits.values 32 - 1) "u32"

def size : Reader Nat := number (Bits.values 64 - 1) "usize"

/-- Reads a value that may be absent. A scalar with the tag of absent values must be a word for
one; otherwise the fault lies with what is around it. -/
def option {α : Type} (outer : Path) (reader : Reader α) : Reader (Option α) :=
  fun doc path node => do
    match ← follow doc node with
    | .scalar p text .plain =>
      if p.tag = some nullTag then
        if isNullWord text then return none
        else failAt outer (.invalidValue (.string text) "null")
      else if p.tag.isNone && (text.isEmpty || isNullWord text) then return none
      else some <$> reader doc path (.scalar p text .plain)
    | node => some <$> reader doc path node

/-- Whether a node is an empty scalar, which can stand for an empty list or mapping. -/
def isEmpty : Node → Bool
  | .scalar _ text .plain => text.isEmpty
  | _ => false

def items {α : Type} (reader : Reader α) (doc : Document) (path : Path) (index : Nat) :
    List Node → Reading (List α)
  | [] => return []
  | node :: rest => do
    let a ← reader doc (.item path index) node
    return a :: (← items reader doc path (index + 1) rest)

def list {α : Type} (reader : Reader α) : Reader (List α) := fun doc path node => do
  match ← follow doc node with
  | .sequence _ nodes => items reader doc path 0 nodes
  | node => if isEmpty node then return [] else failAt path (mismatch "a sequence" node)

/-- Reads the entries of a node that is a mapping. -/
def entriesOf (expected : String) (doc : Document) (path : Path) (node : Node) :
    Reading (List (Node × Node)) := do
  match ← follow doc node with
  | .mapping _ entries => return entries
  | node => if isEmpty node then return [] else failAt path (mismatch expected node)

def valuePath (path : Path) : Node → Path
  | .scalar _ text _ => .entry path text
  | _ => .unnamed path

def tableEntries {α : Type} (reader : Reader α) (doc : Document) (path : Path) :
    List (Node × Node) → Reading (List (String × α))
  | [] => return []
  | (k, v) :: rest => do
    let key ← string "a string" doc path k
    let value ← reader doc (valuePath path k) v
    return (key, value) :: (← tableEntries reader doc path rest)

/-- Reads a table. A repeated name keeps its first place and takes its last value. -/
def table {α : Type} (reader : Reader α) : Reader (Table α) := fun doc path node => do
  let entries ← entriesOf "a map" doc path node
  return Table.ofList (← tableEntries reader doc path entries)

/-- A field of a record that is being read into `P`. -/
structure Field (P : Type) where
  name : String
  seen : P → Bool
  /-- Reads the field. The first path is that of the record. -/
  read : Path → Document → Path → Node → P → Reading P

/-- A field that is kept as an optional value until the record is whole. -/
def Field.of {P α : Type} (name : String) (get : P → Option α) (reader : Path → Reader α)
    (set : α → P → P) : Field P where
  name := name
  seen p := (get p).isSome
  read outer doc path node p := (set · p) <$> reader outer doc path node

/-- Reads the entries of a record, in the order of the document. Entries that are no field are
passed over; a field given twice is an error of the record. -/
def recordEntries {P : Type} (fields : List (Field P)) (doc : Document) (path : Path) (p : P) :
    List (Node × Node) → Reading P
  | [] => return p
  | (k, v) :: rest => do
    let key ← string "field identifier" doc path k
    match fields.find? (·.name == key) with
    | none => recordEntries fields doc path p rest
    | some field =>
      if field.seen p then failAt path (.duplicateField key)
      else
        let p ← field.read path doc (valuePath path k) v p
        recordEntries fields doc path p rest

def record {P α : Type} (expected : String) (fields : List (Field P)) (start : P)
    (finish : P → Except Shape.Fault α) : Reader α := fun doc path node => do
  let entries ← entriesOf expected doc path node
  let p ← recordEntries fields doc path start entries
  match finish p with
  | .ok a => return a
  | .error fault => failAt path fault

/-- The value of a field that has to be there. -/
def required {α : Type} (name : String) : Option α → Except Shape.Fault α
  | some a => .ok a
  | none => .error (.missingField name)

/-- The value among the known names that a name stands for. -/
def variant {α : Type} (known : List (String × α)) (name : String) : Except Shape.Fault α :=
  match known.lookup name with
  | some a => .ok a
  | none => .error (.unknownVariant name (known.map Prod.fst))

def tagOf : Node → Option String
  | .scalar p _ _ => p.tag
  | .sequence p _ => p.tag
  | .mapping p _ => p.tag
  | .alias _ => none

/-- The name in a tag that starts with an exclamation mark. -/
def tagName? (tag : String) : Option String :=
  match tag.toList with
  | '!' :: c :: rest => some (String.ofList (c :: rest))
  | _ => none

/-- What is wrong with the node that goes with a name given as a tag: it must be absent. -/
def unitFault? : Node → Option Shape.Fault
  | .scalar _ text .plain =>
    if text.isEmpty || isNullWord text then none else some (.invalidValue (.string text) "null")
  | .scalar _ text _ => some (.invalidValue (.string text) "null")
  | node => some (mismatch "unit" node)

/-- Reads one of a few names: the text of a scalar, or a tag, which is a fault of what is around
it if it is none of them. -/
def enumeration {α : Type} (known : List (String × α)) (outer : Path) : Reader α :=
  fun doc path node => do
    let node ← follow doc node
    match (tagOf node).bind tagName? with
    | some name =>
      match variant known name with
      | .error fault => failAt outer fault
      | .ok a =>
        match unitFault? node with
        | some fault => failAt path fault
        | none => return a
    | none =>
      match node with
      | .scalar _ text _ =>
        match variant known text with
        | .ok a => return a
        | .error fault => failAt path fault
      | node => failAt path (mismatch "a YAML tag starting with '!'" node)

end Reader

/-- Why a value could not be read from a text. -/
inductive TextError where
  | malformed
  | shape (e : ReadError)
deriving DecidableEq, Repr

/-- The message of a text that cannot be read. -/
def TextError.message : TextError → String
  | .malformed => "the text is no document"
  | .shape e => e.message

def read {α : Type} (reader : Reader α) (text : String) : Except TextError α :=
  match document? text with
  | none => .error .malformed
  | some doc =>
    match reader doc .root doc.root (repetitionLimit * doc.root.size) with
    | .ok (a, _) => .ok a
    | .error e => .error (.shape e)

end ChangeGate.Yaml
