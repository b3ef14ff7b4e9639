import ChangeGate.Bits
import ChangeGate.Text.Digits

/-!
The configuration of a user: where tasks run, where decisions are kept, how many jobs may run at
once, and how results are shown. It is changed one setting at a time.
-/

namespace ChangeGate

inductive OutputFormat where
  | table
  | json
deriving DecidableEq, Repr

def OutputFormat.known : List (String × OutputFormat) := [("table", .table), ("json", .json)]

def OutputFormat.name : OutputFormat → String
  | .table => "table"
  | .json => "json"

structure Config where
  workspace : Option String := none
  storeDir : Option String := none
  maxParallel : Option Nat := none
  outputFormat : OutputFormat := .table
deriving DecidableEq, Repr, Inhabited

inductive Config.Fault where
  | invalidParallelism (value : String)
  | noParallelism
  | invalidFormat (value : String)
  | unknownKey (key : String)
deriving DecidableEq, Repr

def Config.Fault.message : Config.Fault → String
  | .invalidParallelism value => "Invalid max_parallel: " ++ value
  | .noParallelism => "max_parallel must be positive"
  | .invalidFormat value => "Invalid output format: " ++ value
  | .unknownKey key => "Unknown config key: " ++ key

/-- The size of 64 bits that a text writes, with a plus sign or without. -/
def sizeOfText? (text : String) : Option Nat :=
  let digits := match text.toList with
    | '+' :: rest => rest
    | chars => chars
  (Text.ofDigits? 10 digits).filter (· < Bits.values 64)

def Config.set (c : Config) (key value : String) : Except Config.Fault Config :=
  match key with
  | "workspace" => .ok { c with workspace := some value }
  | "store_dir" => .ok { c with storeDir := some value }
  | "max_parallel" =>
    match sizeOfText? value with
    | none => .error (.invalidParallelism value)
    | some 0 => .error .noParallelism
    | some n => .ok { c with maxParallel := some n }
  | "output_format" =>
    match OutputFormat.known.lookup value with
    | some format => .ok { c with outputFormat := format }
    | none => .error (.invalidFormat value)
  | _ => .error (.unknownKey key)

end ChangeGate
