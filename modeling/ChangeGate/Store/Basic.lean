import ChangeGate.Error
import ChangeGate.Gate
import ChangeGate.Json.Basic
import ChangeGate.Table

/-!
Stores of decisions. A store keeps JSON values under keys; each key is written at most once. A store
is given by what it does on its own kind of state, so that runs can be told without saying which
store they use.
-/

namespace ChangeGate

/-- A store whose state is a `σ`. -/
structure Store (σ : Type) where
  put : σ → String → Json → Except Error Unit × σ
  get : σ → String → Except Error Json

namespace Store

variable {σ : Type} (store : Store σ)

def putFlag (s : σ) (key : String) (value : Bool) : Except Error Unit × σ :=
  store.put s key (.bool value)

/-- The error of a key whose value is no truth value. -/
def notBoolean (key : String) : Error :=
  .serialization ("value for '" ++ key ++ "' is not a boolean")

def getFlag (s : σ) (key : String) : Except Error Bool := do
  let value ← store.get s key
  match value.bool? with
  | some b => return b
  | none => throw (notBoolean key)

/-- What the gate says, going by the decision under a key. -/
def check (s : σ) (key : String) : Except Error Verdict :=
  (store.getFlag s key).map Verdict.ofChanges

/-- The store that lasts as long as the process: a table. -/
def memory : Store (Table Json) where
  put t key value :=
    if t.contains key then (.error (.duplicateWrite key), t)
    else (.ok (), t.insert key value)
  get t key :=
    match t.get? key with
    | some value => .ok value
    | none => .error (.decisionNotFound key)

end Store

end ChangeGate
