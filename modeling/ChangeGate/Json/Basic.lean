import ChangeGate.Binary64

/-!
JSON values. Members of an object keep the order in which they are written; `Json.sorted` puts them
in the order of their names, each name once, which is how a store keeps a value.
-/

namespace ChangeGate

/-- A JSON number: a whole number of at most 64 bits, or a floating-point number. -/
inductive Json.Number where
  | int (value : Int)
  | real (value : Binary64)
deriving DecidableEq, Repr

inductive Json where
  | null
  | bool (value : Bool)
  | number (value : Json.Number)
  | string (value : String)
  | array (items : List Json)
  | object (members : List (String × Json))
deriving Repr, Inhabited

namespace Json

def int (value : Int) : Json := .number (.int value)

def nat (value : Nat) : Json := .number (.int value)

def ofOption {α : Type} (f : α → Json) : Option α → Json
  | some a => f a
  | none => .null

/-- The truth value that a JSON value is, if it is one. -/
def bool? : Json → Option Bool
  | .bool b => some b
  | _ => none

mutual

/-- Structural equality, by recursion on the value. -/
def same : Json → Json → Bool
  | .null, .null => true
  | .bool a, .bool b => a == b
  | .number a, .number b => a == b
  | .string a, .string b => a == b
  | .array a, .array b => sameItems a b
  | .object a, .object b => sameMembers a b
  | _, _ => false

/-- Structural equality of lists of values. -/
def sameItems : List Json → List Json → Bool
  | [], [] => true
  | a :: as, b :: bs => same a b && sameItems as bs
  | _, _ => false

/-- Structural equality of lists of members. -/
def sameMembers : List (String × Json) → List (String × Json) → Bool
  | [], [] => true
  | (k, a) :: as, (l, b) :: bs => k == l && same a b && sameMembers as bs
  | _, _ => false

end

/-- Only the same number is structurally equal to a number. -/
theorem eq_number_of_same {n : Number} {value : Json} (h : same (.number n) value = true) :
    value = .number n := by
  cases value <;> simp_all [same]

/-- The members with `name` given `value`, in the order of names. A name that is there already has
its value replaced. -/
def insertSorted (name : String) (value : Json) : List (String × Json) → List (String × Json)
  | [] => [(name, value)]
  | (k, v) :: rest =>
    if name < k then (name, value) :: (k, v) :: rest
    else if name = k then (name, value) :: rest
    else (k, v) :: insertSorted name value rest

mutual

/-- The value with the members of every object in the order of their names, the last value of a
repeated name kept. -/
def sorted : Json → Json
  | .array items => .array (sortedItems items)
  | .object members => .object (sortedMembers [] members)
  | v => v

def sortedItems : List Json → List Json
  | [] => []
  | v :: rest => sorted v :: sortedItems rest

/-- Adds members, each sorted, to those already in order. -/
def sortedMembers (done : List (String × Json)) : List (String × Json) → List (String × Json)
  | [] => done
  | (k, v) :: rest => sortedMembers (insertSorted k (sorted v) done) rest

end

mutual

/-- How deep arrays and objects are nested: zero for a value without them. -/
def depth : Json → Nat
  | .array items => depthItems items + 1
  | .object members => depthMembers members + 1
  | _ => 0

def depthItems : List Json → Nat
  | [] => 0
  | v :: rest => max (depth v) (depthItems rest)

def depthMembers : List (String × Json) → Nat
  | [] => 0
  | (_, v) :: rest => max (depth v) (depthMembers rest)

end

end Json

end ChangeGate
