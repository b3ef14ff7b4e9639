import ChangeGate.Shell.Flow
import ChangeGate.Shell.Reader
import ChangeGate.Shell.Testing
import ChangeGate.Shell.Utilities

/-!
The commands of the language itself that need no other command: options, variables, directories,
lines read, formats, signals, and the channels that redirections lead elsewhere.
-/

namespace ChangeGate.Shell

/-- A word as it is shown: the extended form puts words with special characters in quotes. -/
def shownWord (dialect : Dialect) (word : String) : String :=
  let isSafe (c : Char) : Bool := c.isAlphanum || "%+,-./:=@_^".toList.contains c || 128 ≤ c.toNat
  if dialect = .standard then word
  else if word.isEmpty || !word.toList.all isSafe then
    "'" ++ "'\\''".intercalate ((Text.pieces '\'' word.toList).map String.ofList) ++ "'"
  else word

/-- The status that an argument writes, or none if it is no number. -/
def statusOf? (s : State) (text : String) : Option Nat :=
  match Testing.numberOf? text with
  | some n => if n < 0 && s.dialect = .standard then none else some (n % 256).toNat
  | none => none

/-- The number that a text writes, or another one if it writes none. -/
def numberOr (default_ : Nat) (arguments : List String) : Nat :=
  ((arguments.head?).bind fun a => Text.ofDigits? 10 a.toList).getD default_

def setOptions (s : State) (on : Bool) (letters : List Char) : State :=
  letters.foldl (fun s c =>
    match c with
    | 'e' => { s with stopsOnFailure := on }
    | 'u' => { s with requiresValues := on }
    | 'x' => { s with traces := on }
    | _ => s) s

def setNamed (s : State) (on : Bool) (name : String) : State :=
  match name with
  | "errexit" => { s with stopsOnFailure := on }
  | "nounset" => { s with requiresValues := on }
  | "xtrace" => { s with traces := on }
  | "pipefail" => { s with countsPipes := on }
  | _ => s

def setAll (s : State) : List String → State
  | [] => s
  | "--" :: rest => { s with arguments := rest }
  | "-o" :: name :: rest => setAll (setNamed s true name) rest
  | "+o" :: name :: rest => setAll (setNamed s false name) rest
  | a :: rest =>
    match a.toList with
    | '-' :: cs =>
      if cs.contains 'o' then
        match rest with
        | name :: rest => setAll (setNamed (setOptions s true cs) true name) rest
        | [] => setOptions s true cs
      else setAll (setOptions s true cs) rest
    | '+' :: cs => setAll (setOptions s false cs) rest
    | _ => { s with arguments := a :: rest }

/-- The option that the standard form does not have, if one is asked for. -/
def illegalOption? : List String → Option String
  | a :: name :: rest =>
    if a.startsWith "-" && a.toList.contains 'o' && name = "pipefail" then some name
    else illegalOption? (name :: rest)
  | _ => none

/-- Gives a variable a value, or tells that it stays. -/
def assignChecked (s : State) (name value : String) : State × Flow :=
  if s.constants.contains name then
    match s.dialect with
    | .standard => (fatal s (name ++ ": is read only") 2, .stop)
    | .extended => (fatal s (name ++ ": readonly variable") 1, .stop)
  else (s.assign name value, .next)

/-- Makes variables those of the function that is carried out. -/
def makeOwn (s : State) (arguments : List String) : State × Flow :=
  match s.hidden with
  | none =>
    match s.dialect with
    | .standard => (fatal s "local: not in a function" 2, .stop)
    | .extended => (fatal s "local: can only be used in a function" 1, .next)
  | some _ =>
    let own (s : State) (a : String) : State :=
      let (name, value) := match assignmentName a.toList with
        | some (name, value) => (name, some (String.ofList value))
        | none => (a, none)
      let hidden := s.hidden.map ((name, s.valueOf? name) :: ·)
      match value with
      | some value => { s with hidden }.assign name value
      | none => if s.dialect = .extended then { s with hidden }.discard name else { s with hidden }
    (arguments.foldl own (s.withStatus 0), .next)

/-- The state after a function: its own variables are gone. -/
def leaveFunction (outer inner : State) : State :=
  let restore (s : State) (e : String × Option String) : State :=
    match e.2 with
    | some value => s.assign e.1 value
    | none => s.discard e.1
  { (inner.hidden.getD []).foldl restore inner with
    arguments := outer.arguments, hidden := outer.hidden }

/-- Replaces what a pattern matches, at the first place or everywhere; the longest match counts. -/
def replaceMatches (everywhere : Bool) (glyphs : List Glob.Glyph) (other : List Char) :
    List Char → Nat → List Char
  | [], _ => []
  | cs, 0 => cs
  | c :: rest, fuel + 1 =>
    let cs := c :: rest
    let lengths := (List.range cs.length).reverse.map (· + 1)
    match lengths.find? fun n => Glob.isMatch glyphs (cs.take n) with
    | some n =>
      other ++ (if everywhere then replaceMatches true glyphs other (cs.drop n) fuel else cs.drop n)
    | none => c :: replaceMatches everywhere glyphs other rest fuel

/-- The pieces before the first slash that is not quoted, and those after it. -/
def cutAtSlash : List Piece → List Piece × List Piece
  | [] => ([], [])
  | .char '/' false _ :: rest => ([], rest)
  | p :: rest =>
    let (before, after) := cutAtSlash rest
    (p :: before, after)

def changeLetters (upper everywhere : Bool) (cs : List Char) : List Char :=
  let change (c : Char) : Char := if upper then c.toUpper else c.toLower
  if everywhere then cs.map change else (cs.take 1).map change ++ cs.drop 1

/-- The part of a text from a place on, of a length; negative numbers count from the end. -/
def sliceOf (cs : List Char) (place : Int) (length : Option Int) : List Char :=
  let size : Int := cs.length
  let start := (if place < 0 then max 0 (size + place) else place).toNat
  let rest := cs.drop start
  match length with
  | none => rest
  | some n => if n < 0 then rest.take ((rest.length : Int) + n).toNat else rest.take n.toNat

/-- Gives variables values as arguments say, after an action on each name. -/
def assignAll (s : State) (action : State → String → State) (arguments : List String) : State :=
  arguments.foldl (fun s a =>
    match assignmentName a.toList with
    | some (name, value) => action (s.assign name (String.ofList value)) name
    | none => if a.startsWith "-" then s else action s a) s

def changeDirectory (s : State) (arguments : List String) : State :=
  let target := match arguments.head? with
    | none => (s.valueOf? "HOME").getD ""
    | some "-" => (s.valueOf? "OLDPWD").getD s.directory
    | some path => path
  let shows : Bool := arguments.head? = some "-"
  match s.files.lookup s.directory target with
  | .ok .directory =>
    let directory := FileTree.absolute (FileTree.names s.directory target)
    let s := if shows then s.sayLine directory else s
    let s := (s.assign "OLDPWD" s.directory).assign "PWD" directory
    { s with directory, status := 0 }
  | result =>
    match s.dialect with
    | .standard => fatal s ("cd: can't cd to " ++ target) 2
    | .extended =>
      let words := match result with
        | .error fault => Utilities.wordsFor fault
        | .ok _ => "Not a directory"
      fatal s ("cd: " ++ target ++ ": " ++ words) 1

/-- Gives names the fields of a line; the last takes all that is left. -/
def assignFields (s : State) (line : List Char) : List String → State
  | [] => s
  | [name] =>
    let isGap (c : Char) : Bool := s.separators.contains c && (c == ' ' || c == '\t')
    let text := (line.dropWhile isGap).reverse.dropWhile isGap
    s.assign name (String.ofList text.reverse)
  | name :: names =>
    let line := line.dropWhile s.separators.contains
    let field := line.takeWhile (!s.separators.contains ·)
    assignFields (s.assign name (String.ofList field))
      ((line.drop field.length).drop 1) names

def readLineInto (s : State) (arguments : List String) : State :=
  let names := (Utilities.splitOptions arguments).2
  let names := if names.isEmpty then ["REPLY"] else names
  let line := s.input.takeWhile (· ≠ 0x0A)
  let ended := line.length < s.input.length
  let s := { s with input := s.input.drop (line.length + 1) }
  (assignFields s (Utilities.textOf line) names).withStatus (if ended then 0 else 1)

/-- The names that the language itself defines. -/
def ownNames : List String :=
  [":", "true", "false", "exit", "return", "break", "continue", "echo", "printf", "test", "[", "cd",
    "pwd", "export", "readonly", "local", "unset", "set", "shift", "read", "eval", "exec",
    "command", "wait", "trap", "kill", "type", "umask", "ulimit", "hash", "alias", ".", "let",
    "source", "declare"]

/-- The name of a program without the directory where programs are. -/
def programName (name : String) : String :=
  ((["/bin/", "/usr/bin/", "/usr/local/bin/"].find? (name.startsWith ·)).map fun start =>
    (name.drop start.length).toString).getD name

/-- The form of the language that a program understands. -/
def dialectOf? (name : String) : Option Dialect :=
  match programName name with
  | "sh" => some .standard
  | "dash" => some .standard
  | "bash" => some .extended
  | _ => none

def isKnown (s : State) (name : String) : Bool :=
  ownNames.contains name || s.functions.contains name || (dialectOf? name).isSome ||
    ["env"].contains (programName name) || (Utilities.programs.lookup (programName name)).isSome

/-- The message for a name that is not known, and its status. -/
def unknown (s : State) (name : String) : State :=
  if name.toList.contains '/' && s.files.exists? s.directory name then
    fatal s (name ++ ": Permission denied") 126
  else
    match s.dialect with
    | .standard => fatal s (name ++ ": not found") 127
    | .extended =>
      if name.toList.contains '/' then fatal s (name ++ ": No such file or directory") 127
      else fatal s (name ++ ": command not found") 127

def judge (s : State) (name : String) (arguments : List String) : State :=
  match Testing.evaluate s arguments with
  | .ok true => s.withStatus 0
  | .ok false => s.withStatus 1
  | .error (.notANumber text) =>
    match s.dialect with
    | .standard => fatal s (name ++ ": Illegal number: " ++ text) 2
    | .extended => fatal s (name ++ ": " ++ text ++ ": integer expression expected") 2
  | .error (.malformed text) =>
    let (culprit, words) := match arguments with
      | [a, _] => (a, "unary operator expected")
      | [_, b, _] => (b, "binary operator expected")
      | _ => (text, "binary operator expected")
    match s.dialect with
    | .standard => fatal s (name ++ ": " ++ culprit ++ ": unexpected operator") 2
    | .extended =>
      if arguments.length ≤ 3 then fatal s (name ++ ": " ++ culprit ++ ": " ++ words) 2
      else fatal s (name ++ ": too many arguments") 2

def printFormat (s : State) (arguments : List String) : State :=
  match (match arguments with
    | "--" :: rest => rest
    | rest => rest) with
  | [] => fatal s "printf: usage: printf format [arg ...]" 2
  | format :: values =>
    let p := Printing.print (s.dialect = .extended) format values
    let s := s.write 1 p.bytes
    let s := p.faults.foldl (fun s a =>
      match s.dialect with
      | .standard => s.report ("printf: " ++ a ++ ": expected numeric value")
      | .extended => s.report ("printf: " ++ a ++ ": invalid number")) s
    s.withStatus (if p.faults.isEmpty then 0 else 1)

def printLine (s : State) (arguments : List String) : State :=
  let extended : Bool := s.dialect = .extended
  let (escapes, ends, rest) := Printing.lineOptions extended (!extended) true arguments
  (s.write 1 (Printing.line extended escapes ends rest)).withStatus 0

def signalOf? (text : String) : Option Nat :=
  match Text.ofDigits? 10 text.toList with
  | some n => some n
  | none =>
    [("HUP", 1), ("INT", 2), ("QUIT", 3), ("KILL", 9), ("USR1", 10), ("SEGV", 11), ("USR2", 12),
      ("PIPE", 13), ("ALRM", 14), ("TERM", 15), ("ABRT", 6)].lookup
      (if text.startsWith "SIG" then (text.drop 3).toString else text)

def sendSignal (s : State) (arguments : List String) : State × Flow :=
  let (signal, targets) := match arguments with
    | "-s" :: name :: rest => ((signalOf? name).getD 15, rest)
    | a :: rest =>
      if a.startsWith "-" then ((signalOf? (a.drop 1).toString).getD 15, rest) else (15, a :: rest)
    | [] => (15, [])
  if targets.contains ownNumber then
    if signal = 0 then (s.withStatus 0, .next) else (s, .killed signal)
  else (fatal s "kill: No such process" 1, .next)

/-- The places of a file for reading and writing that stand for channels, or for nothing. -/
def specialChannel? (s : State) (path : String) : Option Channel :=
  match path with
  | "/dev/null" => some .nowhere
  | "/dev/stdout" => some ((s.channels.lookup 1).getD .nowhere)
  | "/dev/stderr" => some ((s.channels.lookup 2).getD .nowhere)
  | _ => none

def State.lead (s : State) (channel : Nat) (target : Channel) : State :=
  { s with channels := (channel, target) :: s.channels.filter (·.1 ≠ channel) }

/-- The message for a file that cannot be opened. -/
def openFault (s : State) (action path : String) (fault : IoFault) : State :=
  match s.dialect with
  | .standard =>
    let words := match fault with
      | .notFound => if action = "open" then "No such file" else "Directory nonexistent"
      | fault => Utilities.wordsFor fault
    fatal s ("cannot " ++ action ++ " " ++ path ++ ": " ++ words) 2
  | .extended => fatal s (path ++ ": " ++ Utilities.wordsFor fault) 1

/-- Redirects a channel, or tells why it cannot be. -/
def redirect (s : State) (channel : Nat) (mode : Redirection) (target : String) :
    Except State State :=
  match mode with
  | .text => .ok { s with input := Text.Utf8.encode target.toList }
  | .input =>
    if target = "/dev/null" then .ok { s with input := [] }
    else match s.files.read s.directory target with
      | .ok content => .ok { s with input := content }
      | .error fault => .error (openFault s "open" target fault)
  | .duplicate =>
    match Text.ofDigits? 10 target.toList with
    | some n =>
      match s.channels.lookup n with
      | some place => .ok (s.lead channel place)
      | none =>
        if n = 0 then .ok (s.lead channel .nowhere)
        else
          .error (fatal s (target ++ ": Bad file descriptor")
            (if s.dialect = .standard then 2 else 1))
    | none => .ok (s.lead channel .nowhere)
  | _ =>
    match specialChannel? s target with
    | some place => .ok (s.lead channel place)
    | none =>
      let old := if mode = .append then ((s.files.read s.directory target).toOption).getD [] else []
      match s.files.write s.directory target old with
      | .ok files =>
        .ok ({ s with files }.lead channel (.file (FileTree.names s.directory target)))
      | .error fault => .error (openFault s "create" target fault)

end ChangeGate.Shell
