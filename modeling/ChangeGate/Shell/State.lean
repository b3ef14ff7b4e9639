import ChangeGate.FileTree
import ChangeGate.Shell.Syntax

/-!
The state of a command: its variables, its directory and files, what it can read, and where what it
writes goes.
-/

namespace ChangeGate.Shell

inductive Channel where
  | buffer (number : Nat)
  | file (names : FileTree.Names)
  | nowhere
deriving DecidableEq, Repr

structure State where
  dialect : Dialect
  name : String
  arguments : List String := []
  vars : Table String := ∅
  /-- The names of the variables that other programs see. -/
  exported : List String := []
  functions : Table Command := ∅
  constants : List String := []
  /-- What variables were before a function made them its own, if one is carried out. -/
  hidden : Option (List (String × Option String)) := none
  status : Nat := 0
  /-- The status of the last command in a word of the present one, if there was one. -/
  substituted : Option Nat := none
  line : Nat := 1
  directory : String
  files : FileTree
  input : List UInt8 := []
  channels : List (Nat × Channel) := [(1, .buffer 0), (2, .buffer 1)]
  /-- What has been written to the buffers, in pieces, the last first. -/
  buffers : List (List (List UInt8)) := [[], []]
  stopsOnFailure : Bool := false
  /-- Whether a parameter without a value is a failure. -/
  requiresValues : Bool := false
  /-- Whether every part of a pipe counts for its status. -/
  countsPipes : Bool := false
  atEnd : Option String := none
  loops : Nat := 0
  /-- Whether commands are shown before they are carried out. -/
  traces : Bool := false
  elapsed : Nat := 0
  /-- The time after which everything ends, in milliseconds. -/
  deadline : Nat
  abandoned : List Nat := []
  broken : Bool := false

/-- The directories where the programs are. -/
def programPlaces : List String := ["/bin", "/usr/bin"]

namespace State

/-- The bytes that have been written to a buffer. -/
def written (s : State) (number : Nat) : List UInt8 :=
  ((s.buffers[number]?).getD []).reverse.flatten

def write (s : State) (channel : Nat) (bytes : List UInt8) : State :=
  match s.channels.lookup channel with
  | some (.buffer number) =>
    if s.abandoned.contains number then { s with broken := s.broken || !bytes.isEmpty }
    else { s with buffers := s.buffers.modify number (bytes :: ·) }
  | some (.file names) =>
    match s.files.entry? names with
    | some (.file content) => { s with files := s.files.set names (.file (content ++ bytes)) }
    | _ => s
  | _ => s

/-- Time passes. Who reads a buffer stops at a whole line that is not made of characters. -/
def wait (s : State) (milliseconds : Nat) : State :=
  let isBad (number : Nat) : Bool :=
    ((Text.pieces 0x0A (s.written number)).dropLast.map Text.Utf8.strict?).any (·.isNone)
  { s with
    elapsed := s.elapsed + milliseconds
    abandoned := if milliseconds = 0 then s.abandoned else [0, 1].filter isBad }

def say (s : State) (text : String) : State := s.write 1 (Text.Utf8.encode text.toList)

def sayLine (s : State) (text : String) : State := s.say (text ++ "\n")

/-- Shows a command before it is carried out, where that is asked for. -/
def trace (s : State) (text : String) : State :=
  if s.traces then s.write 2 (Text.Utf8.encode ("+ " ++ text ++ "\n").toList) else s

/-- Writes a line to the channel for messages. -/
def complain (s : State) (text : String) : State :=
  s.write 2 (Text.Utf8.encode (text ++ "\n").toList)

/-- A message of the language itself, with its name and its line. -/
def report (s : State) (message : String) : State :=
  match s.dialect with
  | .standard => s.complain (s.name ++ ": " ++ toString s.line ++ ": " ++ message)
  | .extended => s.complain (s.name ++ ": line " ++ toString s.line ++ ": " ++ message)

def valueOf? (s : State) (name : String) : Option String := s.vars.get? name

def discard (s : State) (name : String) : State :=
  { s with vars := s.vars.erase name, exported := s.exported.filter (· ≠ name) }

def assign (s : State) (name value : String) : State :=
  { s with vars := s.vars.insert name value }

def publish (s : State) (name : String) : State :=
  if s.exported.contains name then s else { s with exported := s.exported ++ [name] }

/-- The variables that other programs see. -/
def environment (s : State) : List (String × String) :=
  s.vars.entries.filter fun e => s.exported.contains e.1

/-- Whether the places where programs are looked for are among those where they are. -/
def findsPrograms (s : State) : Bool :=
  match s.valueOf? "PATH" with
  | none => true
  | some path => (Text.pieces ':' path.toList).any fun place =>
    programPlaces.contains (FileTree.absolute (FileTree.names "/" (String.ofList place)))

end State

end ChangeGate.Shell
