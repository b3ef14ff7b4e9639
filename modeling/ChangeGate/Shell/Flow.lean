import ChangeGate.Shell.Fields
import ChangeGate.Shell.State

/-!
How things go on after a command, and the state between commands: its parameters, what a fault
does to it, and what is left of it after a part with a state of its own.
-/

namespace ChangeGate.Shell

inductive Flow where
  | next
  | stop
  | leave (loops : Nat)
  /-- So many loops but one end, and the last starts over. -/
  | again (loops : Nat)
  | back
  | killed (signal : Nat)
  | late
deriving DecidableEq, Repr

/-- The number under which a command knows itself. -/
def ownNumber : String := "4242"

def State.withStatus (s : State) (status : Nat) : State := { s with status }

def State.parameter? (s : State) (name : String) : Option String :=
  match name with
  | "?" => some (toString s.status)
  | "#" => some (toString s.arguments.length)
  | "$" => some ownNumber
  | "0" => some s.name
  | "@" => if s.arguments.isEmpty then none else some (" ".intercalate s.arguments)
  | "*" => if s.arguments.isEmpty then none else some (" ".intercalate s.arguments)
  | "-" => some ""
  | "!" => some ""
  | _ =>
    match Text.ofDigits? 10 name.toList with
    | some n => s.arguments[n - 1]?
    | none => s.valueOf? name

/-- The pieces of all arguments, each a field of its own. -/
def argumentPieces (quoted : Bool) : List String → List Piece
  | [] => []
  | [a] => .mark :: piecesOf quoted (!quoted) a
  | a :: rest => .mark :: (piecesOf quoted (!quoted) a ++ .boundary :: argumentPieces quoted rest)

/-- A piece of a word that takes the place of a value. -/
def Piece.inPlace (quoted : Bool) : Piece → Piece
  | .char c q splits => .char c (q || quoted) (splits || !quoted)
  | p => p

/-- The message for a parameter without a value. -/
def unsetMessage (s : State) : String :=
  match s.dialect with
  | .standard => "parameter not set"
  | .extended => "unbound variable"

/-- The status after a parameter without a value. -/
def unsetStatus (s : State) : Nat :=
  match s.dialect with
  | .standard => 2
  | .extended => 127

/-- The state after a fault that ends everything. -/
def fatal (s : State) (message : String) (status : Nat) : State :=
  (s.report message).withStatus status

/-- A failure ends everything where that is asked for and nobody looks at the status. -/
def settle (tested : Bool) (s : State) (flow : Flow) : State × Flow :=
  if flow = .next && !tested && s.stopsOnFailure && s.status ≠ 0 then (s, .stop) else (s, flow)

/-- The state after a part with a state of its own: what it wrote and changed outside stays. -/
def rejoin (outer inner : State) : State :=
  { outer with
    status := inner.status, files := inner.files, buffers := inner.buffers
    elapsed := inner.elapsed, input := inner.input
    abandoned := inner.abandoned, broken := inner.broken }

/-- How things go on after a part with a state of its own. -/
def Flow.outside : Flow → Flow
  | .killed signal => .killed signal
  | .late => .late
  | _ => .next

/-- How things go on after a round of a loop, if the loop ends there. -/
def Flow.afterRound? : Flow → Option Flow
  | .next => none
  | .leave n => some (if n ≤ 1 then .next else .leave (n - 1))
  | .again n => if n ≤ 1 then none else some (.again (n - 1))
  | flow => some flow

/-- The state in which a program that understands the language starts. -/
def prepared (s : State) : State :=
  let s := s.assign "IFS" " \t\n"
  if s.dialect = .extended then s.assign "BASH_VERSION" "5.2.15(1)-release" else s

/-- The state after a command that belongs into a loop, where there is none. -/
def outsideLoop (s : State) (name : String) : State :=
  let words := name ++ ": only meaningful in a `for', `while', or `until' loop"
  (if s.dialect = .extended then s.report words else s).withStatus 0

end ChangeGate.Shell
