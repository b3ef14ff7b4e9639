import ChangeGate.Config

/-!
The arguments of the command line. A command may have commands of its own, and each of them knows
its options; some options are known everywhere, and may be given again with every command on the
way. An option is given as `--name value`, as `--name=value`, or by its letter.
-/

namespace ChangeGate.CommandLine

def version : String := "0.1.0"

/-- The workflow file that is taken where none is named. -/
def defaultPath : String := "tollgate.yaml"

structure Changes where
  base : String := "HEAD~1"
  head : String := "HEAD"
  /-- The file that lists the paths; `-` is the input. -/
  changedFrom : Option String := none
deriving DecidableEq, Repr

/-- What a run is told on the command line. -/
structure RunOptions where
  changes : Changes := {}
  workspace : Option String := none
  storeDir : Option String := none
  keepStore : Bool := false
  maxParallel : Option Nat := none
  output : Option OutputFormat := none
deriving DecidableEq, Repr

inductive Command where
  | init
  | validate (path : String)
  | expand (path : String)
  | detect (path : String) (changes : Changes) (output : Option OutputFormat)
  | run (path : String) (options : RunOptions)
  | schema
  | showConfig
  | setConfig (key value : String)
  | showVersion
deriving DecidableEq, Repr

structure Invocation where
  command : Command
  verbose : Bool := false
deriving DecidableEq, Repr

def Command.paths : Command → List String
  | .init => []
  | .validate path => [path]
  | .expand path => [path]
  | .detect path changes _ => path :: changes.changedFrom.toList
  | .run path options =>
    path :: options.changes.changedFrom.toList ++ options.workspace.toList ++
      options.storeDir.toList
  | .schema => []
  | .showConfig => []
  | .setConfig _ _ => []
  | .showVersion => []

/-- Why arguments are not read to their end. -/
inductive UsageFault where
  /-- The version is asked for: what comes later does not matter. -/
  | versionAsked
  | noCommand
  | unknownCommand (name : String)
  | unexpected (argument : String)
  | valueMissing (option : String)
  | invalidValue (option value : String)
  | repeated (option : String)
  | missing (name : String)
deriving DecidableEq, Repr

def UsageFault.message : UsageFault → String
  | .versionAsked => "the version is asked for"
  | .noCommand => "a command is required"
  | .unknownCommand name => "unrecognized command: " ++ name
  | .unexpected argument => "unexpected argument: " ++ argument
  | .valueMissing option => "a value is required for --" ++ option
  | .invalidValue option value => "invalid value for --" ++ option ++ ": " ++ value
  | .repeated option => "--" ++ option ++ " is given more than once"
  | .missing name => "missing argument: " ++ name

structure OptionForm where
  name : String
  letter : Option Char := none
  hasValue : Bool := true

/-- The options that are known everywhere. -/
def commonOptions : List OptionForm :=
  [⟨"verbose", some 'v', false⟩, ⟨"log-json", none, false⟩]

/-- The option that asks for the version. It is known before the first command only. -/
def versionOption : OptionForm := ⟨"version", some 'V', false⟩

/-- The options that tell where the changed paths come from. -/
def changeOptions : List OptionForm := [⟨"base", none, true⟩, ⟨"head", none, true⟩,
  ⟨"changed-from", none, true⟩]

/-- The options of a command by its name. -/
def optionsOf : String → List OptionForm
  | "detect" => changeOptions ++ [⟨"output", some 'o', true⟩]
  | "run" =>
    changeOptions ++
      [⟨"workspace", some 'w', true⟩, ⟨"store-dir", none, true⟩, ⟨"keep-store", none, false⟩,
        ⟨"max-parallel", some 'j', true⟩, ⟨"output", some 'o', true⟩]
  | _ => []

/-- The arguments of one command as far as they are read. -/
structure Arguments where
  options : List (String × String) := []
  operands : List String := []
deriving DecidableEq, Repr

namespace Arguments

/-- Whether an argument may be a value: it is not written like an option. -/
def isValue (argument : String) : Bool := argument == "-" || !argument.startsWith "-"

/-- Adds an option. The one that asks for the version ends the reading. -/
def add (a : Arguments) (name value : String) : Except UsageFault Arguments :=
  if name = versionOption.name then .error .versionAsked
  else if (a.options.lookup name).isSome then .error (.repeated name)
  else .ok { a with options := (name, value) :: a.options }

def addOperands (a : Arguments) (rest : List String) : Arguments :=
  { a with operands := rest.reverse ++ a.operands }

/-- Reads the letters of an argument. Answers the option that still needs a value. -/
def readLetters (known : List OptionForm) (argument : String) (a : Arguments) :
    List Char → Except UsageFault (Arguments × Option String)
  | [] => .ok (a, none)
  | c :: rest =>
    match known.find? (·.letter = some c) with
    | none => .error (.unexpected argument)
    | some form =>
      if form.hasValue then
        let value := if rest.head? = some '=' then rest.drop 1 else rest
        if rest.isEmpty then .ok (a, some form.name)
        else do return (← a.add form.name (String.ofList value), none)
      else do readLetters known argument (← a.add form.name "") rest

/-- Reads an option that is given by its name. Answers the option that still needs a value. -/
def readName (known : List OptionForm) (argument : String) (a : Arguments) (cs : List Char) :
    Except UsageFault (Arguments × Option String) := do
  let name := String.ofList (cs.takeWhile (· ≠ '='))
  match known.find? (·.name = name), cs.dropWhile (· ≠ '=') with
  | none, _ => throw (.unexpected argument)
  | some form, [] => if form.hasValue then return (a, some name) else return (← a.add name "", none)
  | some form, _ :: value =>
    if form.hasValue then return (← a.add name (String.ofList value), none)
    else throw (.unexpected argument)

/-- Reads arguments; `waiting` is the option that needs a value. If `first` holds, reading stops at
the first argument that is no option, and the rest is answered. -/
def read (known : List OptionForm) (first : Bool) (a : Arguments) (waiting : Option String) :
    List String → Except UsageFault (Arguments × List String)
  | [] =>
    match waiting with
    | some name => .error (.valueMissing name)
    | none => .ok (a, [])
  | argument :: rest =>
    match waiting with
    | some name =>
      if isValue argument then do read known first (← a.add name argument) none rest
      else .error (.valueMissing name)
    | none =>
      if argument = "--" && !first then .ok (a.addOperands rest, [])
      else if isValue argument then
        if first then .ok (a, argument :: rest)
        else read known first (a.addOperands [argument]) none rest
      else match argument.toList with
        | '-' :: '-' :: cs => do
          let (a, waiting) ← readName known argument a cs
          read known first a waiting rest
        | cs => do
          let (a, waiting) ← readLetters known argument a (cs.drop 1)
          read known first a waiting rest

/-- The value of an option that may not be empty. -/
def path? (a : Arguments) (name : String) : Except UsageFault (Option String) :=
  match a.options.lookup name with
  | some "" => .error (.invalidValue name "")
  | value => .ok value

def output (a : Arguments) : Except UsageFault (Option OutputFormat) :=
  match a.options.lookup "output" with
  | none => .ok none
  | some value =>
    match OutputFormat.known.lookup value with
    | some format => .ok (some format)
    | none => .error (.invalidValue "output" value)

/-- The number of jobs that may run at once. -/
def maxParallel (a : Arguments) : Except UsageFault (Option Nat) :=
  match a.options.lookup "max-parallel" with
  | none => .ok none
  | some value =>
    match sizeOfText? value with
    | some n => .ok (some n)
    | none => .error (.invalidValue "max-parallel" value)

def changes (a : Arguments) : Except UsageFault Changes := do
  let usual : Changes := {}
  return {
    base := (a.options.lookup "base").getD usual.base
    head := (a.options.lookup "head").getD usual.head
    changedFrom := ← a.path? "changed-from" }

def workflowPath (a : Arguments) : Except UsageFault String :=
  match a.operands.reverse with
  | [] => .ok defaultPath
  | [""] => .error (.invalidValue "path" "")
  | [path] => .ok path
  | _ :: other :: _ => .error (.unexpected other)

def nothing (a : Arguments) : Except UsageFault Unit :=
  match a.operands.reverse with
  | [] => .ok ()
  | operand :: _ => .error (.unexpected operand)

/-- The command of a name with arguments. -/
def command (a : Arguments) : String → Except UsageFault Command
  | "init" => do a.nothing; return .init
  | "validate" => return .validate (← a.workflowPath)
  | "expand" => return .expand (← a.workflowPath)
  | "detect" => return .detect (← a.workflowPath) (← a.changes) (← a.output)
  | "run" => do
    return .run (← a.workflowPath)
      { changes := ← a.changes
        workspace := ← a.path? "workspace"
        storeDir := ← a.path? "store-dir"
        keepStore := (a.options.lookup "keep-store").isSome
        maxParallel := ← a.maxParallel
        output := ← a.output }
  | "schema" => do a.nothing; return .schema
  | "config show" => do a.nothing; return .showConfig
  | "config set" =>
    match a.operands.reverse with
    | [key, value] => return .setConfig key value
    | _ :: _ :: other :: _ => throw (.unexpected other)
    | [_] => throw (.missing "value")
    | [] => throw (.missing "key")
  | name => throw (.unknownCommand name)

end Arguments

/-- Reads the options before the name of a command. Answers the name and what follows it. -/
def Arguments.beforeCommand (known : List OptionForm) (arguments : List String) :
    Except UsageFault (Arguments × String × List String) := do
  match ← read known true {} none arguments with
  | (_, []) => throw .noCommand
  | (a, name :: rest) => return (a, name, rest)

/-- Reads a command with the options before it, on the way to it and after it. -/
def Invocation.read (arguments : List String) : Except UsageFault Invocation := do
  let (first, name, rest) ← Arguments.beforeCommand (versionOption :: commonOptions) arguments
  let (second, name, rest) ←
    if name = "config" then do
      let (a, name, rest) ← Arguments.beforeCommand commonOptions rest
      pure (a, "config " ++ name, rest)
    else pure ({}, name, rest)
  let (last, _) ← Arguments.read (commonOptions ++ optionsOf name) false {} none rest
  let verbose := [first, second, last].any fun a => (a.options.lookup "verbose").isSome
  return ⟨← last.command name, verbose⟩

/-- The invocation that arguments stand for. -/
def Invocation.ofArguments (arguments : List String) : Except UsageFault Invocation :=
  match Invocation.read arguments with
  | .error .versionAsked => .ok { command := .showVersion }
  | result => result

end ChangeGate.CommandLine
