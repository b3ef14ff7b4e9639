import ChangeGate.Bits
import ChangeGate.Json.Draft

/-!
Reading typed values from drafts. A reader walks a draft from left to right and stops at the first
thing that is wrong: either the text itself is no JSON there, or the value there has another shape
than the wanted one. A draft is read directly from a text, or after it has been held back as a
whole because its kind was not known yet; then nothing in it is open any more.
-/

namespace ChangeGate.Json

inductive ReadError where
  | malformed
  | shape (fault : Shape.Fault)
deriving DecidableEq, Repr

def words : Shape.Words := ⟨"null", Binary64.toCompact⟩

inductive Source where
  | text
  /-- It was read as a whole first, because its kind was not known yet. -/
  | held
  | value
deriving DecidableEq, Repr

abbrev Reader (α : Type) := Draft → Except ReadError α

namespace Reader

/-- What stands in a draft, or `none` where the text goes wrong. -/
def found? : Draft → Option Shape.Found
  | .null => some .unit
  | .bool b => some (.bool b)
  | .number (.int i) => some (.integer i)
  | .number (.real x) => some (.real x)
  | .string s => some (.string s)
  | .array .. => some .sequence
  | .object .. => some .map
  | .unreadable => none
  | .fault => none

/-- The error of a draft that is not of the wanted kind. -/
def mismatch {α : Type} (expected : String) (draft : Draft) : Except ReadError α :=
  match found? draft with
  | some found => .error (.shape (.invalidType found expected))
  | none => .error .malformed

def string (expected : String) : Reader String
  | .string s => .ok s
  | d => mismatch expected d

def bool : Reader Bool
  | .bool b => .ok b
  | d => mismatch "a boolean" d

/-- Reads a whole number between two bounds. -/
def integer (low high : Int) (expected : String) : Reader Int
  | .number (.int i) =>
    if low ≤ i ∧ i ≤ high then .ok i
    else .error (.shape (.invalidValue (.integer i) expected))
  | d => mismatch expected d

def size : Reader Nat := fun d => (integer 0 (Bits.values 64 - 1) "usize" d).map Int.toNat

def count : Reader Nat := fun d => (integer 0 (Bits.values 64 - 1) "u64" d).map Int.toNat

def int32 : Reader Int := integer (-(Bits.values 31 : Int)) (Bits.values 31 - 1) "i32"

def option {α : Type} (reader : Reader α) : Reader (Option α)
  | .null => .ok none
  | d => (reader d).map some

def skip : Reader Unit := fun d => if d.isWhole then .ok () else .error .malformed

def items {α : Type} (reader : Reader α) : List Draft → Except ReadError (List α)
  | [] => .ok []
  | d :: rest => do
    let a ← reader d
    return a :: (← items reader rest)

def list {α : Type} (reader : Reader α) : Reader (List α)
  | .array ds closed => do
    let as ← items reader ds
    if closed then return as else throw .malformed
  | d => mismatch "a sequence" d

def members {α : Type} (reader : Reader α) : List (String × Draft) →
    Except ReadError (List (String × α))
  | [] => .ok []
  | (k, d) :: rest => do
    let a ← reader d
    return (k, a) :: (← members reader rest)

/-- Reads a table. A repeated name keeps its first place and takes its last value. -/
def table {α : Type} (reader : Reader α) : Reader (Table α)
  | .object ms closed => do
    let entries ← members reader ms
    if closed then return Table.ofList entries else throw .malformed
  | d => mismatch "a map" d

/-- A field of a record that is being read into `P`. -/
structure Field (P : Type) where
  name : String
  seen : P → Bool
  read : Draft → P → Except ReadError P

/-- Reads the members of a record, in the order of the text. Members that are no field are passed
over; a field given twice is an error at its second name. -/
def recordMembers {P : Type} (fields : List (Field P)) (p : P) :
    List (String × Draft) → Except ReadError P
  | [] => .ok p
  | (k, d) :: rest =>
    match fields.find? (·.name == k) with
    | none => do
      skip d
      recordMembers fields p rest
    | some field =>
      if field.seen p then .error (.shape (.duplicateField k))
      else do
        let p ← field.read d p
        recordMembers fields p rest

/-- Reads the items of a record written as a list of its fields. Answers the record and the items
left over. -/
def recordItems {P : Type} (expected : String) (index : Nat) (p : P) :
    List (Field P) → List Draft → Bool → Except ReadError (P × List Draft)
  | [], ds, _ => .ok (p, ds)
  | _ :: _, [], closed =>
    if closed then .error (.shape (.invalidLength index expected)) else .error .malformed
  | field :: fields, d :: ds, closed => do
    let p ← field.read d p
    recordItems expected (index + 1) p fields ds closed

def itemCount (n : Nat) : String :=
  if n = 1 then "1 element in sequence" else toString n ++ " elements in sequence"

/-- The words for a record of a number of fields. -/
def recordLength (expected : String) (n : Nat) : String :=
  expected ++ " with " ++ toString n ++ (if n = 1 then " element" else " elements")

/-- A field that is kept as an optional value until the record is whole. -/
def Field.of {P α : Type} (name : String) (get : P → Option α) (reader : Reader α)
    (set : α → P → P) : Field P where
  name := name
  seen p := (get p).isSome
  read d p := (reader d).map fun a => set a p

/-- Reads a record: named members in any order, or the list of its fields. Items left over are
counted, unless the draft is read as its text goes: there they are no JSON. -/
def record {P α : Type} (expected : String) (fields : List (Field P)) (start : P)
    (finish : P → Except ReadError α) (source : Source) : Reader α
  | .object ms closed => do
    let p ← recordMembers fields start ms
    if closed then finish p else throw .malformed
  | .array ds closed => do
    let count := fields.length
    let (p, rest) ← recordItems (recordLength expected count) 0 start fields ds closed
    let a ← finish p
    match rest, closed with
    | [], true => return a
    | rest, _ =>
      if source = .text then throw .malformed
      else throw (.shape (.invalidLength (count + rest.length) (itemCount count)))
  | d => mismatch expected d

/-- The value of a field that has to be there. -/
def required {α : Type} (name : String) : Option α → Except ReadError α
  | some a => .ok a
  | none => .error (.shape (.missingField name))

/-- The value among the known names that a name stands for. -/
def variant {α : Type} (known : List (String × α)) (name : String) : Except ReadError α :=
  match known.lookup name with
  | some a => .ok a
  | none => .error (.shape (.unknownVariant name (known.map Prod.fst)))

/-- Reads one of a few names. The name may also be the only member of an object, with null as its
value; in a draft that was held back an empty object counts as null there. In a draft that is read
as its text goes anything else is no JSON. -/
def enumeration {α : Type} (known : List (String × α)) (source : Source) : Reader α
  | .string s => variant known s
  | .object [] closed =>
    if closed ∧ source ≠ .text then .error (.shape (.invalidValue .map "map with a single key"))
    else .error .malformed
  | .object ((k, d) :: others) closed =>
    if source ≠ .text ∧ !others.isEmpty then
      .error (.shape (.invalidValue .map "map with a single key"))
    else do
      let a ← variant known k
      match d, source with
      | .null, _ => pure ()
      | .object [] true, .held => pure ()
      | d, _ => mismatch "unit" d
      if closed && others.isEmpty then return a else throw .malformed
  | d => if source = .text then .error .malformed else mismatch "string or map" d

/-- A value whose kind is told by one of its members: the kind, and all the rest held back. -/
structure Tagged (κ : Type) where
  kind : κ
  rest : Draft

/-- Holds a draft back: its text must be whole and not nested too deep. -/
def hold (depth : Nat) (d : Draft) : Except ReadError Draft :=
  match d.toJson? depth with
  | some v => .ok (.ofJson v)
  | none => .error .malformed

/-- Reads the name of a kind. In a value that was held back the kind may be given by its number. -/
def kindName {κ : Type} (known : List (String × κ)) (source : Source) : Reader κ
  | .string s => variant known s
  | .number (.int i) =>
    if source ≠ .text ∧ 0 ≤ i then
      match known[i.toNat]? with
      | some (_, k) => .ok k
      | none =>
        .error (.shape (.invalidValue (.integer i)
          ("variant index 0 <= i < " ++ toString known.length)))
    else mismatch "variant identifier" (.number (.int i))
  | d => mismatch "variant identifier" d

/-- Reads the members of a tagged value: the member that tells the kind, and the others held
back. -/
def taggedMembers {κ : Type} (tag : String) (known : List (String × κ)) (source : Source)
    (depth : Nat)
    (kind : Option κ) (done : List (String × Draft)) :
    List (String × Draft) → Except ReadError (Option κ × List (String × Draft))
  | [] => .ok (kind, done.reverse)
  | (k, d) :: rest =>
    if k = tag then
      if kind.isSome then .error (.shape (.duplicateField tag))
      else do
        let kind ← kindName known source d
        taggedMembers tag known source depth (some kind) done rest
    else do
      let d ← hold depth d
      taggedMembers tag known source depth kind ((k, d) :: done) rest

/-- Reads a value whose kind is told by the member `tag`, or by the first item of a list. -/
def tagged {κ : Type} (expected tag : String) (known : List (String × κ)) (source : Source)
    (depth : Nat) : Reader (Tagged κ)
  | .object ms closed => do
    let (kind, rest) ← taggedMembers tag known source depth none [] ms
    if !closed then throw .malformed
    let kind ← required tag kind
    return ⟨kind, .object rest true⟩
  | .array (d :: ds) closed => do
    let kind ← kindName known source d
    let rest ← items (hold depth) ds
    if !closed then throw .malformed
    return ⟨kind, .array rest true⟩
  | .array [] closed =>
    if closed then .error (.shape (.missingField tag)) else .error .malformed
  | d => mismatch expected d

end Reader

def read {α : Type} (reader : Reader α) (text : String) : Except ReadError α := do
  let (draft, whole) := Draft.ofText text
  let a ← reader draft
  if whole then return a else throw .malformed

end ChangeGate.Json
