import ChangeGate.Shell.LinePattern
import ChangeGate.Shell.Printing
import ChangeGate.Shell.State

/-!
The programs that commands can use. Each takes a state and arguments, and answers the state after it
and its status.
-/

namespace ChangeGate.Shell.Utilities

abbrev Program := State → List String → State × Nat

def linesOf (content : List UInt8) : List (List UInt8) :=
  let pieces := Text.pieces 0x0A content
  if pieces.getLast? = some [] then pieces.dropLast else pieces

def ofLines (lines : List (List UInt8)) : List UInt8 := lines.flatMap (· ++ [0x0A])

def textOf (content : List UInt8) : List Char := Text.Utf8.lenient content

def wordsFor (fault : IoFault) : String :=
  match fault.system? with
  | some (_, _, words) => words
  | none => fault.message

/-- What files hold, or what can be read if none is given; also whether all could be read. -/
def contents (s : State) (program : String) (paths : List String) :
    State × List (String × List UInt8) × Bool :=
  if paths.isEmpty then ({ s with input := [] }, [("", s.input)], true)
  else paths.foldl (fun (s, found, ok) path =>
    if path = "-" then ({ s with input := [] }, found ++ [("-", s.input)], ok)
    else if path = "/dev/null" then (s, found ++ [(path, [])], ok)
    else match s.files.read s.directory path with
      | .ok content => (s, found ++ [(path, content)], ok)
      | .error fault =>
        (s.complain (program ++ ": " ++ path ++ ": " ++ wordsFor fault), found, false))
    (s, [], true)

/-- The options at the start of arguments, and the arguments after them. -/
def splitOptions : List String → List String × List String
  | [] => ([], [])
  | a :: rest =>
    if a = "--" then ([], rest)
    else if a.startsWith "-" && a ≠ "-" then
      let (options, rest) := splitOptions rest
      (a :: options, rest)
    else ([], a :: rest)

def letters (options : List String) : List Char := options.flatMap fun o => o.toList.drop 1

def statusOf (ok : Bool) : Nat := if ok then 0 else 1

def cat : Program := fun s arguments =>
  let (_, paths) := splitOptions arguments
  let (s, found, ok) := contents s "cat" paths
  (found.foldl (fun s e => s.write 1 e.2) s, statusOf ok)

/-- A count given as an option, as its own argument or after a letter, with the other arguments. -/
def countOption (letter : Char) (default : Nat) : List String → Nat × Bool × List String
  | [] => (default, false, [])
  | a :: rest =>
    match a.toList with
    | ['-', c] =>
      if c = letter then
        match rest with
        | n :: rest => ((Text.ofDigits? 10 n.toList).getD default, true, rest)
        | [] => (default, false, [])
      else if c.isDigit then ((Text.ofDigits? 10 [c]).getD default, true, rest)
      else
        let (n, given, others) := countOption letter default rest
        (n, given, a :: others)
    | '-' :: c :: digits =>
      let digits := if c = letter then digits else c :: digits
      match Text.ofDigits? 10 digits with
      | some n => (n, true, rest)
      | none =>
        let (n, given, others) := countOption letter default rest
        (n, given, a :: others)
    | _ =>
      let (n, given, others) := countOption letter default rest
      (n, given, a :: others)

def head : Program := fun s arguments =>
  let (bytes, byBytes, arguments) := countOption 'c' 0 arguments
  let (count, _, arguments) :=
    if byBytes then (0, false, arguments) else countOption 'n' 10 arguments
  let (s, found, ok) := contents s "head" (splitOptions arguments).2
  (found.foldl (fun s e =>
    s.write 1 (if byBytes then e.2.take bytes
      else
        let lines := Text.pieces 0x0A e.2
        if lines.length ≤ count then e.2 else ofLines (lines.take count))) s, statusOf ok)

def tail : Program := fun s arguments =>
  let (bytes, byBytes, arguments) := countOption 'c' 0 arguments
  let (count, _, arguments) :=
    if byBytes then (0, false, arguments) else countOption 'n' 10 arguments
  let (s, found, ok) := contents s "tail" (splitOptions arguments).2
  (found.foldl (fun s e =>
    s.write 1 (if byBytes then e.2.drop (e.2.length - bytes)
      else
        let lines := linesOf e.2
        let kept := lines.drop (lines.length - count)
        if e.2.getLast? = some 0x0A then ofLines kept else (ofLines kept).dropLast)) s, statusOf ok)

def column (width n : Nat) : String :=
  let digits := toString n
  String.ofList (List.replicate (width - digits.length) ' ') ++ digits

/-- The numbers of lines, words and bytes. -/
def wc : Program := fun s arguments =>
  let (options, paths) := splitOptions arguments
  let chosen := letters options
  let (s, found, ok) := contents s "wc" paths
  let counts (content : List UInt8) : List Nat :=
    let spaced := (textOf content).map fun c => if c.isWhitespace then ' ' else c
    let words := (Text.pieces ' ' spaced).filter
      (!·.isEmpty)
    let all := [('l', content.count 0x0A), ('w', words.length), ('c', content.length),
      ('m', (textOf content).length)]
    let wanted := if chosen.isEmpty then ['l', 'w', 'c'] else chosen
    (all.filter fun e => wanted.contains e.1).map Prod.snd
  (found.foldl (fun s (path, content) =>
    let numbers := counts content
    let width := if numbers.length ≤ 1 then 0 else 7
    s.sayLine (" ".intercalate
      (numbers.map (column width) ++ (if path.isEmpty then [] else [path])))) s,
    statusOf ok)

/-- The number at the start of a text, for ordering. -/
def leading (line : List UInt8) : Int :=
  let cs := (textOf line).dropWhile Char.isWhitespace
  match cs with
  | '-' :: rest => -(((Text.ofDigits? 10 (rest.takeWhile Char.isDigit)).getD 0 : Nat) : Int)
  | _ => ((Text.ofDigits? 10 (cs.takeWhile Char.isDigit)).getD 0 : Nat)

/-- The lines without those that equal the one before. -/
def distinct : List (List UInt8) → List (List UInt8)
  | a :: b :: rest => if a = b then distinct (b :: rest) else a :: distinct (b :: rest)
  | lines => lines

/-- Whether a line comes no later than another in the order of their bytes. -/
def notAfter : List UInt8 → List UInt8 → Bool
  | [], _ => true
  | _ :: _, [] => false
  | a :: as, b :: bs => if a = b then notAfter as bs else decide (a < b)

def sort : Program := fun s arguments =>
  let (options, paths) := splitOptions arguments
  let chosen := letters options
  let (s, found, ok) := contents s "sort" paths
  let lines := found.flatMap fun e => linesOf e.2
  let ordered := lines.mergeSort fun a b =>
    if chosen.contains 'n' && leading a != leading b then decide (leading a < leading b)
    else notAfter a b
  let ordered := if chosen.contains 'r' then ordered.reverse else ordered
  (s.write 1 (ofLines (if chosen.contains 'u' then distinct ordered else ordered)), statusOf ok)

/-- The lengths of the runs of equal lines. -/
def runs : List (List UInt8) → List (Nat × List UInt8)
  | [] => []
  | a :: rest =>
    match runs rest with
    | (n, b) :: others => if a = b then (n + 1, b) :: others else (1, a) :: (n, b) :: others
    | [] => [(1, a)]

def uniq : Program := fun s arguments =>
  let (options, paths) := splitOptions arguments
  let (s, found, ok) := contents s "uniq" paths
  let found := runs (found.flatMap fun e => linesOf e.2)
  let counted := (letters options).contains 'c'
  (found.foldl (fun s (n, line) =>
    (if counted then s.say (column 7 n ++ " ") else s).write 1 (line ++ [0x0A])) s, statusOf ok)

/-- The characters of a set, with ranges and escapes. -/
def setOf (cs : List Char) : Nat → List Char
  | 0 => []
  | fuel + 1 =>
    match cs with
    | [] => []
    | '\\' :: c :: rest => ((Printing.simpleEscape? true c).getD c) :: setOf rest fuel
    | a :: '-' :: b :: rest =>
      (List.range (b.toNat + 1 - a.toNat)).map (fun i => Char.ofNat (a.toNat + i)) ++
        setOf rest fuel
    | c :: rest => c :: setOf rest fuel

def tr : Program := fun s arguments =>
  let (options, sets) := splitOptions arguments
  let sets := sets.map fun t => setOf t.toList (t.length + 1)
  let cs := textOf s.input
  let s := { s with input := [] }
  let chosen := letters options
  let squeezed : List Char → List Char := fun cs =>
    cs.foldr (fun c rest =>
      if rest.head? = some c && ((sets.getLast?).getD []).contains c then rest else c :: rest) []
  match sets with
  | [from_] =>
    let result := if chosen.contains 'd' then cs.filter (!from_.contains ·) else cs
    (s.write 1 (Text.Utf8.encode (if chosen.contains 's' then squeezed result else result)), 0)
  | from_ :: to_ :: _ =>
    let last := to_.getLast?
    let change (c : Char) : Char :=
      match from_.idxOf? c with
      | some i => ((to_[i]?).or last).getD c
      | none => c
    let result := if chosen.contains 'd' then cs.filter (!from_.contains ·) else cs.map change
    (s.write 1 (Text.Utf8.encode (if chosen.contains 's' then squeezed result else result)), 0)
  | [] => (s.complain "tr: missing operand", 1)

def seq : Program := fun s arguments =>
  let number (t : String) : Int := (Printing.numberOf? t).getD 0
  let (first, step, last) : Int × Int × Int := match arguments with
    | [last] => (1, 1, number last)
    | [first, last] => (number first, 1, number last)
    | [first, step, last] => (number first, number step, number last)
    | _ => (1, 1, 0)
  if step = 0 then (s, 1)
  else
    let count := if 0 < step then (last - first) / step + 1 else (first - last) / (-step) + 1
    let numbers := (List.range (min count.toNat 100000)).map fun (i : Nat) => first + step * i
    (s.say (String.join (numbers.map fun n => toString n ++ "\n")), 0)

def grep : Program := fun s arguments =>
  let (options, rest) := splitOptions arguments
  let chosen := letters options
  match rest with
  | [] => (s.complain "Usage: grep [OPTION]... PATTERNS [FILE]...", 2)
  | pattern :: paths =>
    let lower (cs : List Char) : List Char :=
      if chosen.contains 'i' then cs.map Char.toLower else cs
    let fold (t : String) : String := String.ofList (lower t.toList)
    let isMatch (line : List UInt8) : Bool :=
      let cs := lower (textOf line)
      if chosen.contains 'F' then
        let wanted := (fold pattern).toList
        if chosen.contains 'x' then cs == wanted else (Glob.rests cs).any (wanted.isPrefixOf ·)
      else
        let p := LinePattern.ofText (chosen.contains 'E') (fold pattern)
        (if chosen.contains 'x' then { p with fromStart := true, toEnd := true } else p).isMatch cs
    let (s, found, ok) := contents s "grep" paths
    let lines := found.flatMap fun e => (linesOf e.2).map (e.1, ·)
    let kept := lines.filter fun e => isMatch e.2 != chosen.contains 'v'
    let numbered := (lines.zipIdx 1).filter fun e => isMatch e.1.2 != chosen.contains 'v'
    let label (path : String) : String := if paths.length ≤ 1 then "" else path ++ ":"
    let s :=
      if chosen.contains 'q' then s
      else if chosen.contains 'c' then s.sayLine (toString kept.length)
      else if chosen.contains 'n' then
        numbered.foldl
          (fun s e => (s.say (label e.1.1 ++ toString e.2 ++ ":")).write 1 (e.1.2 ++ [0x0A])) s
      else kept.foldl (fun s e => (s.say (label e.1)).write 1 (e.2 ++ [0x0A])) s
    (s, if !ok then 2 else statusOf (!kept.isEmpty))

/-- A path without the slashes at its end. -/
def withoutSlashes (path : String) : List Char :=
  let cs := (path.toList.reverse.dropWhile (· = '/')).reverse
  if cs.isEmpty && !path.isEmpty then ['/'] else cs

/-- The last part of a path, perhaps without an ending. -/
def basename : Program := fun s arguments =>
  match arguments with
  | [] => (s.complain "basename: missing operand", 1)
  | path :: endings =>
    let cs := withoutSlashes path
    let name := if cs = ['/'] then cs else (cs.reverse.takeWhile (· ≠ '/')).reverse
    let name := match endings with
      | ending :: _ =>
        if ending.toList.isSuffixOf name && ending.toList ≠ name then
          name.take (name.length - ending.length)
        else name
      | [] => name
    (s.sayLine (String.ofList name), 0)

def dirname : Program := fun s arguments =>
  match arguments with
  | [] => (s.complain "dirname: missing operand", 1)
  | path :: _ =>
    let cs := withoutSlashes path
    let before := cs.reverse.dropWhile (· ≠ '/')
    let result := match before with
      | [] => ['.']
      | before =>
        let cut := (before.dropWhile (· = '/')).reverse
        if cut.isEmpty then ['/'] else cut
    (s.sayLine (String.ofList result), 0)

def ls : Program := fun s arguments =>
  let (options, paths) := splitOptions arguments
  let hidden := (letters options).any fun c => c = 'a' || c = 'A'
  let paths := if paths.isEmpty then ["."] else paths
  paths.foldl (fun (s, status) path =>
    match s.files.lookup s.directory path with
    | .error fault =>
      (s.complain ("ls: cannot access '" ++ path ++ "': " ++ wordsFor fault), 2)
    | .ok (.file _) => (s.sayLine path, status)
    | .ok .directory =>
      let names := (s.files.list (FileTree.names s.directory path)).filter fun n =>
        hidden || !n.startsWith "."
      let s := if 1 < paths.length then s.sayLine (path ++ ":") else s
      (names.foldl State.sayLine s, status)) (s, 0)

/-- Goes through paths with an action on the files; a path that it cannot be done to is named in a
message. -/
def onPaths (program what : String) (action : State → String → Except IoFault FileTree)
    (s : State) (paths : List String) : State × Nat :=
  paths.foldl (fun (s, status) path =>
    match action s path with
    | .ok files => ({ s with files }, status)
    | .error fault =>
      (s.complain (program ++ ": " ++ what ++ "'" ++ path ++ "': " ++ wordsFor fault), 1)) (s, 0)

def touch : Program := fun s arguments =>
  onPaths "touch" "cannot touch " (fun s path =>
    if s.files.exists? s.directory path then .ok s.files else s.files.write s.directory path [])
    s (splitOptions arguments).2

def mkdir : Program := fun s arguments =>
  let (options, paths) := splitOptions arguments
  let along := (letters options).contains 'p'
  onPaths "mkdir" "cannot create directory " (fun s path =>
    if along then s.files.makeDirectories s.directory path
    else if s.files.exists? s.directory path then .error .alreadyThere
    else
      let names := FileTree.names s.directory path
      match s.files.entry? names.dropLast with
      | some .directory => .ok (s.files.set names .directory)
      | some (.file _) => .error .notADirectory
      | none => .error .notFound) s paths

/-- Removes files, and directories where that is asked for. -/
def rm : Program := fun s arguments =>
  let (options, paths) := splitOptions arguments
  let chosen := letters options
  let deep := chosen.contains 'r' || chosen.contains 'R'
  onPaths "rm" "cannot remove " (fun s path =>
    match s.files.lookup s.directory path with
    | .error fault => if chosen.contains 'f' then .ok s.files else .error fault
    | .ok .directory =>
      if deep then .ok (s.files.remove (FileTree.names s.directory path)) else .error .isADirectory
    | .ok (.file _) => .ok (s.files.remove (FileTree.names s.directory path))) s paths

def rmdir : Program := fun s arguments =>
  onPaths "rmdir" "failed to remove " (fun s path =>
    match s.files.lookup s.directory path with
    | .error fault => .error fault
    | .ok (.file _) => .error .notADirectory
    | .ok .directory =>
      let names := FileTree.names s.directory path
      if (s.files.list names).isEmpty then .ok (s.files.remove names)
      else .error (.other "Directory not empty")) s (splitOptions arguments).2

/-- The place of a copy: inside a directory it keeps its name. -/
def placeOf (s : State) (source target : String) : String :=
  if s.files.isDirectory s.directory target then
    target ++ "/" ++ ((FileTree.names s.directory source).getLast?).getD ""
  else target

def cp : Program := fun s arguments =>
  match (splitOptions arguments).2 with
  | [source, target] =>
    onPaths "cp" "cannot stat " (fun s path => do
      let content ← s.files.read s.directory path
      s.files.write s.directory (placeOf s path target) content) s [source]
  | _ => (s.complain "cp: missing file operand", 1)

def mv : Program := fun s arguments =>
  match (splitOptions arguments).2 with
  | [source, target] =>
    onPaths "mv" "cannot stat " (fun s path => do
      let content ← s.files.read s.directory path
      let files := s.files.remove (FileTree.names s.directory path)
      files.write s.directory (placeOf s path target) content) s [source]
  | _ => (s.complain "mv: missing file operand", 1)

/-- The milliseconds that a duration stands for. -/
def milliseconds? (text : String) : Option Nat :=
  let cs := text.toList
  let isNumeral (c : Char) : Bool := c.isDigit || c == '.'
  let whole := cs.takeWhile Char.isDigit
  let fraction := ((cs.dropWhile Char.isDigit).takeWhile isNumeral).drop 1
  let digits := (fraction ++ ['0', '0', '0']).take 3
  let amount := (Text.ofDigits? 10 whole).getD 0 * 1000 + (Text.ofDigits? 10 digits).getD 0
  match cs.dropWhile isNumeral with
  | [] => if cs.isEmpty then none else some amount
  | ['s'] => some amount
  | ['m'] => some (amount * 60)
  | ['h'] => some (amount * 3600)
  | _ => none

def sleep : Program := fun s arguments =>
  match arguments.mapM milliseconds? with
  | some durations => (s.wait (durations.foldl (· + ·) 0), 0)
  | none =>
    let bad := (arguments.find? fun a => (milliseconds? a).isNone).getD ""
    let s := s.complain ("sleep: invalid time interval '" ++ bad ++ "'")
    (s.complain "Try 'sleep --help' for more information.", 1)

/-- The values of variables that programs see. -/
def printenv : Program := fun s arguments =>
  match arguments with
  | [] => (s.environment.foldl (fun s e => s.sayLine (e.1 ++ "=" ++ e.2)) s, 0)
  | names =>
    names.foldl (fun (s, status) name =>
      match s.environment.lookup name with
      | some value => (s.sayLine value, status)
      | none => (s, 1)) (s, 0)

def tee : Program := fun s arguments =>
  let (options, paths) := splitOptions arguments
  let content := s.input
  let s := { s with input := [] }.write 1 content
  let more := (letters options).contains 'a'
  onPaths "tee" "" (fun s path =>
    let old := if more then ((s.files.read s.directory path).toOption).getD [] else []
    s.files.write s.directory path (old ++ content)) s paths

/-- The value of an expression given as arguments. -/
def expr : Program := fun s arguments =>
  match Arithmetic.evaluate .standard ∅ (" ".intercalate arguments) with
  | .ok (n, _) => (s.sayLine (toString n), statusOf (n != 0))
  | .error _ => (s.complain "expr: syntax error", 2)

/-- The lines with their characters in the opposite order. -/
def rev : Program := fun s arguments =>
  let (s, found, ok) := contents s "rev" arguments
  let lines := found.flatMap fun e => linesOf e.2
  (s.write 1 (ofLines (lines.map fun l => Text.Utf8.encode (textOf l).reverse)), statusOf ok)

def fieldNumbers (text : String) : List (Nat × Nat) :=
  (Text.pieces ',' text.toList).map fun piece =>
    let first := piece.takeWhile Char.isDigit
    let a := (Text.ofDigits? 10 first).getD 1
    match piece.dropWhile Char.isDigit with
    | '-' :: last => (a, (Text.ofDigits? 10 last).getD 1000000)
    | _ => (a, a)

/-- Keeps fields or characters of each line. -/
def cut : Program := fun s arguments =>
  let rec settings : List String → Char × Option String × Option String × List String
    | [] => ('\t', none, none, [])
    | a :: rest =>
      match a.toList with
      | ['-', c] =>
        match rest with
        | value :: rest =>
          let (d, f, n, others) := settings rest
          if c = 'd' then (value.toList.headD '\t', f, n, others)
          else if c = 'f' then (d, some value, n, others)
          else if c = 'c' then (d, f, some value, others)
          else (d, f, n, value :: others)
        | [] => ('\t', none, none, [])
      | '-' :: c :: value =>
        let (d, f, n, others) := settings rest
        if c = 'd' then (value.headD '\t', f, n, others)
        else if c = 'f' then (d, some (String.ofList value), n, others)
        else if c = 'c' then (d, f, some (String.ofList value), others)
        else (d, f, n, others)
      | _ =>
        let (d, f, n, others) := settings rest
        (d, f, n, a :: others)
  let (delimiter, fields, places, paths) := settings arguments
  let (s, found, ok) := contents s "cut" paths
  let chosen {α : Type} (wanted : List (Nat × Nat)) (parts : List α) : List α :=
    ((parts.zipIdx 1).filter fun e => wanted.any fun r => r.1 ≤ e.2 && e.2 ≤ r.2).map Prod.fst
  let edit (line : List Char) : List Char :=
    match fields, places with
    | some f, _ =>
      if line.contains delimiter then
        List.intercalate [delimiter] (chosen (fieldNumbers f) (Text.pieces delimiter line))
      else line
    | none, some p => chosen (fieldNumbers p) line
    | none, none => line
  let lines := found.flatMap fun e => linesOf e.2
  (s.write 1 (ofLines (lines.map fun l => Text.Utf8.encode (edit (textOf l)))), statusOf ok)

def uname : Program := fun s _ => (s.sayLine "Linux", 0)

def programs : List (String × Program) :=
  [("cat", cat), ("head", head), ("tail", tail), ("wc", wc), ("sort", sort), ("uniq", uniq),
    ("tr", tr), ("seq", seq), ("grep", grep), ("basename", basename), ("dirname", dirname),
    ("ls", ls), ("touch", touch), ("mkdir", mkdir), ("rm", rm), ("rmdir", rmdir), ("cp", cp),
    ("mv", mv), ("sleep", sleep), ("printenv", printenv), ("tee", tee), ("expr", expr),
    ("rev", rev), ("cut", cut), ("uname", uname)]

end ChangeGate.Shell.Utilities
