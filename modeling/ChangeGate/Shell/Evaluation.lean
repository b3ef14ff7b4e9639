import ChangeGate.Shell.Builtins
import ChangeGate.Shell.Complaint

/-!
Carrying commands out. What can go on without end is bounded by a number of steps; a command that
uses them up counts as one that never ends.
-/

namespace ChangeGate.Shell

/-- Whether a text is the name of a variable. -/
def isVariable (name : String) : Bool :=
  match name.toList with
  | [] => false
  | c :: rest => startsName c && rest.all inName

def programs : List String :=
  ["sh", "dash", "bash", "env", "echo", "printf", "test", "[", "true", "false", "pwd", "kill"] ++
    Utilities.programs.map Prod.fst

/-- The state after an expression without a value. -/
def badExpression (s : State) (text : String) (fault : Arithmetic.Fault) : State :=
  fatal s (fault.message s.dialect text) (if s.dialect = .standard then 2 else 1)

/-- The commands after which a failed redirection ends everything in the standard form. -/
def specialNames : List String :=
  [":", ".", "break", "continue", "eval", "exec", "exit", "export", "readonly", "return", "set",
    "shift", "trap", "unset"]

def isSpecial (s : State) : Command → Bool
  | .simple _ _ (word :: _) =>
    s.dialect = .standard && specialNames.contains (String.ofList (plainWord word).1)
  | _ => false

mutual

def expandPart (s : State) (part : Part) : Nat → State × List Piece × Flow
  | 0 => (s, [], .late)
  | fuel + 1 =>
    match part with
    | .text quoted text =>
      (s, if quoted && text.isEmpty then [.mark] else piecesOf quoted false text, .next)
    | .substitution quoted body =>
      let (s, text, flow) := capture s body fuel
      (s, piecesOf quoted (!quoted) text, flow)
    | .arithmetic quoted expression =>
      let (s, pieces, flow) := expandParts s expression fuel
      if flow ≠ .next then (s, [], flow)
      else match Arithmetic.evaluate s.dialect s.vars (textOfPieces pieces) with
        | .ok (n, vars) =>
          ({ s with vars }, piecesOf quoted (!quoted) (toString n), .next)
        | .error fault => (badExpression s (textOfPieces pieces) fault, [], .stop)
    | .parameter quoted name operator word =>
      let value := s.parameter? name
      let empty (orEmpty : Bool) : Bool := value.isNone || (orEmpty && value == some "")
      let pieces : List Piece :=
        if name = "@" || (name = "*" && !quoted) then argumentPieces quoted s.arguments
        else piecesOf quoted (!quoted) (value.getD "")
      let inWord (_ : Unit) : State × List Piece × Flow :=
        let (s, found, flow) := expandParts s word fuel
        (s, found.map (Piece.inPlace quoted), flow)
      match operator with
      | .value =>
        if value.isNone && s.requiresValues && name ≠ "@" && name ≠ "*" then
          (fatal s (name ++ ": " ++ unsetMessage s) (unsetStatus s), [], .stop)
        else (s, pieces, .next)
      | .length => (s, piecesOf quoted false (toString (value.getD "").length), .next)
      | .default orEmpty => if empty orEmpty then inWord () else (s, pieces, .next)
      | .alternative orEmpty => if empty orEmpty then (s, [], .next) else inWord ()
      | .assign orEmpty =>
        if empty orEmpty then
          let (s, found, flow) := inWord ()
          (s.assign name (textOfPieces found), found, flow)
        else (s, pieces, .next)
      | .required orEmpty =>
        if empty orEmpty then
          let (s, found, flow) := inWord ()
          let message := textOfPieces found
          if flow ≠ .next then (s, [], flow)
          else
            let words := if message.isEmpty then "parameter not set" else message
            let status := if s.dialect = .standard then 2 else 127
            (fatal s (name ++ ": " ++ words) status, [], .stop)
        else (s, pieces, .next)
      | .dropEnd longest =>
        let (s, found, flow) := inWord ()
        let rest := Glob.dropEnd longest (patternOf found) (value.getD "").toList
        (s, piecesOf quoted (!quoted) (String.ofList rest), flow)
      | .dropStart longest =>
        let (s, found, flow) := inWord ()
        let rest := Glob.dropStart longest (patternOf found) (value.getD "").toList
        (s, piecesOf quoted (!quoted) (String.ofList rest), flow)
      | .slice =>
        let (s, found, flow) := inWord ()
        let numberOf (cs : List Char) : Int :=
          match Arithmetic.evaluate s.dialect s.vars (String.ofList cs) with
          | .ok (n, _) => n
          | .error _ => 0
        let rest := match Text.pieces ':' (textOfPieces found).toList with
          | [place] => sliceOf (value.getD "").toList (numberOf place) none
          | place :: length :: _ =>
            sliceOf (value.getD "").toList (numberOf place) (some (numberOf length))
          | [] => []
        (s, piecesOf quoted (!quoted) (String.ofList rest), flow)
      | .replace everywhere =>
        let (s, found, flow) := inWord ()
        let (pattern, other) := cutAtSlash found
        let text := (value.getD "").toList
        let rest := replaceMatches everywhere (patternOf pattern) (textOfPieces other).toList text
          text.length
        (s, piecesOf quoted (!quoted) (String.ofList rest), flow)
      | .letters upper everywhere =>
        let rest := changeLetters upper everywhere (value.getD "").toList
        (s, piecesOf quoted (!quoted) (String.ofList rest), .next)

def expandParts (s : State) (word : Word) : Nat → State × List Piece × Flow
  | 0 => (s, [], .late)
  | fuel + 1 =>
    match word with
    | [] => (s, [], .next)
    | part :: rest =>
      let (s, found, flow) := expandPart s part fuel
      if flow ≠ .next then (s, [], flow)
      else
        let (s, others, flow) := expandParts s rest fuel
        (s, found ++ others, flow)

/-- Expands a word; a tilde at its start is the directory of the user. -/
def expandWord (s : State) (word : Word) : Nat → State × List Piece × Flow
  | 0 => (s, [], .late)
  | fuel + 1 =>
    match word with
    | .text false "~" :: rest =>
      match rest with
      | [] => (s, piecesOf true false ((s.valueOf? "HOME").getD "~"), .next)
      | .text false "/" :: _ =>
        let (s, found, flow) := expandParts s rest fuel
        (s, piecesOf true false ((s.valueOf? "HOME").getD "~") ++ found, flow)
      | _ => expandParts s word fuel
    | _ => expandParts s word fuel

def expandWords (s : State) (words : List Word) : Nat → State × List String × Flow
  | 0 => (s, [], .late)
  | fuel + 1 =>
    match words with
    | [] => (s, [], .next)
    | word :: rest =>
      let (s, found, flow) := expandWord s word fuel
      if flow ≠ .next then (s, [], flow)
      else
        let fields := fieldsOf s found
        let (s, others, flow) := expandWords s rest fuel
        (s, fields ++ others, flow)

/-- What a command writes, without the line ends at its end. -/
def capture (s : State) (body : Command) : Nat → State × String × Flow
  | 0 => (s, "", .late)
  | fuel + 1 =>
    let number := s.buffers.length
    let inner := { s with buffers := s.buffers ++ [[]] }.lead 1 (.buffer number)
    let (inner, flow) := evaluate false inner body fuel
    let text := (Utilities.textOf (inner.written number)).reverse.dropWhile (· = '\n')
    ({ rejoin s inner with substituted := some inner.status }, String.ofList text.reverse,
      flow.outside)

def assignWords (s : State) (exports : Bool) (assignments : List (String × Word)) :
    Nat → State × Flow
  | 0 => (s, .late)
  | fuel + 1 =>
    match assignments with
    | [] => (s, .next)
    | (name, word) :: rest =>
      let (s, found, flow) := expandWord s word fuel
      if flow ≠ .next then (s, flow)
      else
        let s := if exports then s
          else s.trace (name ++ "=" ++ shownWord s.dialect (textOfPieces found))
        let (s, flow) := assignChecked s name (textOfPieces found)
        if flow ≠ .next then (s, flow)
        else assignWords (if exports then s.publish name else s) exports rest fuel

def callName (s : State) (name : String) (arguments : List String) : Nat → State × Flow
  | 0 => (s, .late)
  | fuel + 1 =>
    let done (s : State) : State × Flow := (s, .next)
    match s.functions.get? name with
    | some body =>
      let (inner, flow) := evaluate false { s with arguments, hidden := some [] } body fuel
      (leaveFunction s inner, if flow = .back then .next else flow)
    | none =>
      match name with
      | ":" => done (s.withStatus 0)
      | "true" => done (s.withStatus 0)
      | "false" => done (s.withStatus 1)
      | "echo" => done (printLine s arguments)
      | "printf" => done (printFormat s arguments)
      | "test" => done (judge s "test" arguments)
      | "[" =>
        if arguments.getLast? = some "]" then done (judge s "[" arguments.dropLast)
        else done (fatal s (if s.dialect = .standard then "[: missing ]" else "[: missing `]'") 2)
      | "cd" => done (changeDirectory s arguments)
      | "pwd" => done ((s.sayLine s.directory).withStatus 0)
      | "read" => done (readLineInto s arguments)
      | "export" => done ((assignAll s State.publish arguments).withStatus 0)
      | "readonly" =>
        let keep (s : State) (n : String) : State := { s with constants := n :: s.constants }
        done ((assignAll s keep arguments).withStatus 0)
      | "local" => makeOwn s arguments
      | "unset" =>
        done (arguments.foldl (fun s n =>
          { s.discard n with functions := s.functions.erase n }) (s.withStatus 0))
      | "set" =>
        match (if s.dialect = .standard then illegalOption? arguments else none) with
        | some option => (fatal s ("set: Illegal option -o " ++ option) 2, .stop)
        | none => done ((setAll s arguments).withStatus 0)
      | "shift" =>
        let count := numberOr 1 arguments
        if s.arguments.length < count then
          if s.dialect = .standard then (fatal s "shift: can't shift that many" 2, .stop)
          else done (s.withStatus 1)
        else done { s with arguments := s.arguments.drop count, status := 0 }
      | "exit" =>
        match arguments with
        | [] => (s, .stop)
        | a :: _ =>
          match statusOf? s a with
          | some status => (s.withStatus status, .stop)
          | none =>
            match s.dialect with
            | .standard => (fatal s ("exit: Illegal number: " ++ a) 2, .stop)
            | .extended => (fatal s ("exit: " ++ a ++ ": numeric argument required") 2, .stop)
      | "return" =>
        if s.dialect = .extended && s.hidden.isNone then
          done (fatal s "return: can only `return' from a function or sourced script" 2)
        else (s.withStatus (((arguments.head?).bind (statusOf? s)).getD s.status), .back)
      | "break" =>
        if s.loops = 0 then done (outsideLoop s name)
        else (s.withStatus 0, .leave (min s.loops (numberOr 1 arguments)))
      | "continue" =>
        if s.loops = 0 then done (outsideLoop s name)
        else (s.withStatus 0, .again (min s.loops (numberOr 1 arguments)))
      | "eval" => script (s.withStatus 0) (" ".intercalate arguments).toList fuel
      | "exec" =>
        match arguments with
        | [] => done (s.withStatus 0)
        | n :: rest =>
          if isKnown s n then
            let (s, flow) := callName s n rest fuel
            (s, if flow = .next then .stop else flow)
          else (fatal s ("exec: " ++ n ++ ": not found") 127, .stop)
      | "command" =>
        match arguments with
        | "-v" :: names =>
          done (names.foldl (fun s n =>
            if isKnown s n then
              s.sayLine
                (if ownNames.contains n || s.functions.contains n then n else "/usr/bin/" ++ n)
            else s.withStatus (if s.dialect = .standard then 127 else 1)) (s.withStatus 0))
        | n :: rest => callName s n rest fuel
        | [] => done (s.withStatus 0)
      | "trap" =>
        match arguments with
        | [action, "EXIT"] => done { s with atEnd := some action, status := 0 }
        | [action, "0"] => done { s with atEnd := some action, status := 0 }
        | _ => done (s.withStatus 0)
      | "kill" => sendSignal s arguments
      | "wait" => done (s.withStatus 0)
      | "type" =>
        done (arguments.foldl (fun s n =>
          if s.functions.contains n then s.sayLine (n ++ " is a shell function")
          else if ownNames.contains n then s.sayLine (n ++ " is a shell builtin")
          else if isKnown s n then s.sayLine (n ++ " is /usr/bin/" ++ n)
          else if s.dialect = .standard then
            { s with status := 127 }.write 1 (Text.Utf8.encode (n ++ ": not found\n").toList)
          else fatal s ("type: " ++ n ++ ": not found") 1) (s.withStatus 0))
      | "umask" =>
        done ((if arguments.isEmpty then s.sayLine "0022" else s).withStatus 0)
      | "ulimit" => done (s.withStatus 0)
      | "hash" => done (s.withStatus 0)
      | "alias" => done (s.withStatus 0)
      | "env" =>
        let isAssignment (a : String) : Bool := (assignmentName a.toList).isSome
        let inner := assignAll s State.publish (arguments.takeWhile isAssignment)
        match arguments.dropWhile isAssignment with
        | [] =>
          let shown := inner.environment.foldl (fun s e => s.sayLine (e.1 ++ "=" ++ e.2)) inner
          done (rejoin s (shown.withStatus 0))
        | n :: rest =>
          let (inner, flow) := callName inner n rest fuel
          (rejoin s inner, flow)
      | "which" =>
        done (arguments.foldl (fun s n =>
          if (dialectOf? n).isSome || programs.contains n then s.sayLine ("/usr/bin/" ++ n)
          else s.withStatus 1) (s.withStatus 0))
      | _ =>
        if name = "let" && s.dialect = .extended then
          match Arithmetic.evaluate .extended s.vars (", ".intercalate arguments) with
          | .ok (n, vars) => done { s with vars, status := if n = 0 then 1 else 0 }
          | .error fault => done (badExpression s (" ".intercalate arguments) fault)
        else if name = "declare" && s.dialect = .extended then
          done ((assignAll s (fun s _ => s) arguments).withStatus 0)
        else if (name = "." || (name = "source" && s.dialect = .extended)) then
          match arguments with
          | path :: _ =>
            match s.files.read s.directory path with
            | .ok content => script (s.withStatus 0) (Utilities.textOf content) fuel
            | .error _ =>
              if s.dialect = .standard then
                (fatal s (".: cannot open " ++ path ++ ": No such file") 2, .stop)
              else done (fatal s (path ++ ": No such file or directory") 1)
          | [] => done (s.withStatus 2)
        else if !name.toList.contains '/' && !s.findsPrograms then done (unknown s name)
        else match dialectOf? name with
          | some dialect => callShell s dialect name arguments fuel
          | none =>
            match Utilities.programs.lookup (programName name) with
            | some program =>
              let (s, status) := program s arguments
              (s.withStatus status, if s.deadline ≤ s.elapsed then .late else .next)
            | none => done (unknown s name)

/-- Carries out the command given to a program that understands the language. -/
def callShell (s : State) (dialect : Dialect) (name : String) (arguments : List String) :
    Nat → State × Flow
  | 0 => (s, .late)
  | fuel + 1 =>
    let (options, rest) := Utilities.splitOptions arguments
    let chosen := Utilities.letters options
    let start : State :=
      { s with
        dialect, name, vars := Table.ofList s.environment, functions := ∅, arguments := []
        stopsOnFailure := false, requiresValues := false, traces := false, status := 0
        atEnd := none }
    let start := setOptions (prepared start) true chosen
    let run (s : State) (text : List Char) : State × Flow := script s text fuel
    let (inner, flow) : State × Flow :=
      if chosen.contains 'c' then
        match rest with
        | [] => (fatal start "-c requires an argument" 2, .next)
        | [text] => run start text.toList
        | text :: own :: others => run { start with name := own, arguments := others } text.toList
      else
        match rest with
        | [] => run { start with input := [] } (Utilities.textOf s.input)
        | path :: others =>
          match s.files.read s.directory path with
          | .ok content =>
            run { start with name := path, arguments := others } (Utilities.textOf content)
          | .error fault =>
            let (words, status) := match dialect with
              | .standard => (name ++ ": 0: cannot open " ++ path ++ ": No such file", 2)
              | .extended => (name ++ ": " ++ path ++ ": " ++ Utilities.wordsFor fault, 127)
            ((start.complain words).withStatus status, .next)
    match flow with
    | .killed signal => ((rejoin s inner).withStatus (128 + signal), .next)
    | flow => (rejoin s inner, flow.outside)

def simple (s : State) (assignments : List (String × Word)) (words : List Word) :
    Nat → State × Flow
  | 0 => (s, .late)
  | fuel + 1 =>
    let words :=
      if s.dialect = .extended then words.flatMap fun w => alternatives w (w.length + 1) else words
    let (s, fields, flow) := expandWords { s with substituted := none } words fuel
    if flow ≠ .next then (s, flow)
    else match fields with
      | [] =>
        let (s, flow) := assignWords s false assignments fuel
        if flow ≠ .next then (s, flow) else (s.withStatus (s.substituted.getD 0), .next)
      | name :: arguments =>
        let (inner, flow) := assignWords s true assignments fuel
        if flow ≠ .next then (inner, flow)
        else
          let inner := inner.trace (" ".intercalate (fields.map (shownWord s.dialect)))
          let (after, flow) := callName inner name arguments fuel
          let (after, flow) : State × Flow :=
            if !after.broken then (after, flow)
            else if ownNames.contains name || s.functions.contains name then (after, .killed 13)
            else ({ after with broken := false, status := 141 }, flow)
          if assignments.isEmpty then (after, flow)
          else
            let restore (t : State) (e : String × Word) : State :=
              match s.valueOf? e.1 with
              | some old => t.assign e.1 old
              | none => t.discard e.1
            let after := assignments.foldl restore after
            ({ after with exported := s.exported }, flow)

def rounds (s : State) (isUntil : Bool) (condition body : Command) (status : Nat) :
    Nat → State × Flow
  | 0 => (s, .late)
  | fuel + 1 =>
    let (s, flow) := evaluate true s condition fuel
    match flow.afterRound? with
    | some flow => (s, flow)
    | none =>
      if (s.status = 0) = isUntil then (s.withStatus status, .next)
      else
        let (s, flow) := evaluate false s body fuel
        match flow.afterRound? with
        | some flow => (s, flow)
        | none => rounds s isUntil condition body s.status fuel

/-- The value of an expression; one without a value has failed. -/
def valueOfWord (s : State) (expression : Word) : Nat → State × Int × Flow
  | 0 => (s, 0, .late)
  | fuel + 1 =>
    let (s, found, flow) := expandParts s expression fuel
    if flow ≠ .next then (s, 0, flow)
    else match Arithmetic.evaluate s.dialect s.vars (textOfPieces found) with
      | .ok (n, vars) => ({ s with vars }, n, .next)
      | .error fault => (badExpression s (textOfPieces found) fault, 0, .next)

/-- Carries out the rounds of a loop between expressions. -/
def countRounds (s : State) (test next : Word) (body : Command) : Nat → State × Flow
  | 0 => (s, .late)
  | fuel + 1 =>
    let (s, n, flow) := valueOfWord s test fuel
    if flow ≠ .next || (n = 0 && !test.isEmpty) then (s, flow)
    else
      let (s, flow) := evaluate false s body fuel
      match flow.afterRound? with
      | some flow => (s, flow)
      | none =>
        let (s, _, flow) := valueOfWord s next fuel
        if flow ≠ .next then (s, flow) else countRounds s test next body fuel

def expandOperands (s : State) (words : List Word) : Nat → State × List Testing.Operand × Flow
  | 0 => (s, [], .late)
  | fuel + 1 =>
    match words with
    | [] => (s, [], .next)
    | word :: rest =>
      let (s, found, flow) := expandWord s word fuel
      if flow ≠ .next then (s, [], flow)
      else
        let operand : Testing.Operand := ⟨textOfPieces found, patternOf found, !(plainWord word).2⟩
        let (s, others, flow) := expandOperands s rest fuel
        (s, operand :: others, flow)

/-- Carries out a command for every value of a variable. -/
def forEach (s : State) (name : String) (values : List String) (body : Command) :
    Nat → State × Flow
  | 0 => (s, .late)
  | fuel + 1 =>
    match values with
    | [] => (s, .next)
    | value :: rest =>
      let (s, flow) := evaluate false (s.assign name value) body fuel
      match flow.afterRound? with
      | some flow => (s, flow)
      | none => forEach s name rest body fuel

/-- The command of the first arm with a pattern that a text matches. -/
def chooseArm (s : State) (text : List Char) (arms : List (List Word × Command)) :
    Nat → State × Flow
  | 0 => (s, .late)
  | fuel + 1 =>
    match arms with
    | [] => (s.withStatus 0, .next)
    | ([], _) :: rest => chooseArm s text rest fuel
    | (pattern :: patterns, body) :: rest =>
      let (s, found, flow) := expandWord s pattern fuel
      if flow ≠ .next then (s, flow)
      else if Glob.isMatch (patternOf found) text then evaluate false (s.withStatus 0) body fuel
      else chooseArm s text ((patterns, body) :: rest) fuel

/-- Carries out a command. `tested` says whether somebody looks at its status. -/
def evaluate (tested : Bool) (s : State) (command : Command) : Nat → State × Flow
  | 0 => (s, .late)
  | fuel + 1 =>
    match command with
    | .nothing => (s, .next)
    | .simple line assignments words =>
      let (s, flow) := simple { s with line } assignments words fuel
      settle tested s flow
    | .redirected body channel mode target =>
      let (s, found, flow) := expandWord s target fuel
      if flow ≠ .next then (s, flow)
      else match redirect s channel mode (textOfPieces found) with
        | .error s => if isSpecial s body then (s, .stop) else settle tested s .next
        | .ok inner =>
          let (after, flow) := evaluate tested inner body fuel
          let keeps : Bool := match body with
            | .simple _ [] [word] => (plainWord word).1 == "exec".toList
            | _ => false
          if keeps then (after, flow)
          else
            let input := if mode = .input || mode = .text then s.input else after.input
            ({ after with channels := s.channels, input }, flow)
    | .sequence first second =>
      let (s, flow) := evaluate tested s first fuel
      if flow = .next then evaluate tested s second fuel else (s, flow)
    | .and first second =>
      let (s, flow) := evaluate true s first fuel
      if flow = .next && s.status = 0 then evaluate tested s second fuel else (s, flow)
    | .or first second =>
      let (s, flow) := evaluate true s first fuel
      if flow = .next && s.status ≠ 0 then evaluate tested s second fuel else (s, flow)
    | .not body =>
      let (s, flow) := evaluate true s body fuel
      if flow = .next then (s.withStatus (if s.status = 0 then 1 else 0), .next) else (s, flow)
    | .pipe first second =>
      let number := s.buffers.length
      let left := { s with buffers := s.buffers ++ [[]] }.lead 1 (.buffer number)
      let (left, flow) := evaluate true left first fuel
      if flow.outside ≠ .next then (rejoin s left, flow.outside)
      else
        let right := { rejoin s left with input := left.written number }
        let (right, flow) := evaluate true right second fuel
        let status :=
          if s.countsPipes && right.status = 0 then left.status else right.status
        settle tested { rejoin s right with input := left.input, status } flow.outside
    | .background body =>
      let (inner, _) := evaluate true s body fuel
      ({ rejoin s inner with status := 0, elapsed := s.elapsed }, .next)
    | .subshell body =>
      let (inner, flow) := evaluate tested s body fuel
      settle tested (rejoin s inner) flow.outside
    | .choice condition yes no =>
      let (s, flow) := evaluate true s condition fuel
      if flow ≠ .next then (s, flow)
      else if s.status = 0 then evaluate tested s yes fuel
      else evaluate tested (s.withStatus 0) no fuel
    | .loop isUntil condition body =>
      let (after, flow) := rounds { s with loops := s.loops + 1 } isUntil condition body 0 fuel
      ({ after with loops := s.loops }, flow)
    | .each name words body =>
      let (s, values, flow) : State × List String × Flow :=
        match words with
        | none => (s, s.arguments, .next)
        | some words =>
          expandWords s (if s.dialect = .extended then
            words.flatMap fun w => alternatives w (w.length + 1) else words) fuel
      if flow ≠ .next then (s, flow)
      else
        let (after, flow) :=
          forEach { s with status := 0, loops := s.loops + 1 } name values body fuel
        ({ after with loops := s.loops }, flow)
    | .cases word arms =>
      let (s, found, flow) := expandWord s word fuel
      if flow ≠ .next then (s, flow) else chooseArm s (textOfPieces found).toList arms fuel
    | .define name body =>
      ({ s with functions := s.functions.insert name body, status := 0 }, .next)
    | .compute line expression =>
      let (s, n, flow) := valueOfWord { s with line } expression fuel
      if flow ≠ .next then (s, flow)
      else settle tested (s.withStatus (if n = 0 then 1 else 0)) .next
    | .condition line words =>
      let (s, operands, flow) := expandOperands { s with line } words fuel
      if flow ≠ .next then (s, flow)
      else match Testing.evaluateInBrackets s operands with
        | .ok holds => settle tested (s.withStatus (if holds then 0 else 1)) .next
        | .error (.notANumber text) =>
          settle tested (fatal s ("[[: " ++ text ++ ": syntax error") 1) .next
        | .error (.malformed text) => (fatal s ("syntax error near `" ++ text ++ "'") 2, .stop)
    | .count start test next body =>
      let (s, _, flow) := valueOfWord s start fuel
      if flow ≠ .next then (s, flow)
      else
        let (after, flow) :=
          countRounds { s with status := 0, loops := s.loops + 1 } test next body fuel
        ({ after with loops := s.loops }, flow)

/-- Reads and carries out the lines of a text. -/
def script (s : State) (cs : List Char) : Nat → State × Flow
  | 0 => (s, .late)
  | fuel + 1 =>
    let setting : Setting := ⟨s.dialect, cs.count '\n', cs⟩
    lines s setting cs fuel

/-- Reads and carries out the lines that are left of a text. -/
def lines (s : State) (setting : Setting) (cs : List Char) : Nat → State × Flow
  | 0 => (s, .late)
  | fuel + 1 =>
    let cs := skipLines false cs
    if cs.isEmpty then (s, .next)
    else
      let faulty (fault : SyntaxFault) : State × Flow :=
        let told := fault.complaints setting s (setting.line cs)
        (told.foldl State.complain (s.withStatus 2), .stop)
      match readLine setting cs (readingSteps cs) with
      | .error fault => faulty fault
      | .ok (command, rest) =>
        if !rest.isEmpty && rest.head? ≠ some '\n' then
          faulty (.unexpected (tokenAt rest))
        else
          let (s, flow) := evaluate false s command fuel
          if flow = .next then lines s setting rest fuel else (s, flow)

end

inductive Ending where
  | exited (status : Nat)
  | killed (signal : Nat)
  | late
deriving DecidableEq, Repr

structure Outcome where
  ending : Ending
  stdout : List UInt8
  stderr : List UInt8
  files : FileTree

/-- The number of nested steps after which a command counts as one that never ends. -/
def manySteps : Nat := 200000

/-- Tells why a program cannot be started, if so. A name without a slash is looked for in the places
that the variable for them names. -/
def startFault? (program : String) (environment : Table String) (directory : String)
    (files : FileTree) : Option IoFault :=
  let start : State :=
    { dialect := .extended, name := program, vars := environment, directory, files
      deadline := 0 }
  if program.isEmpty then some .notFound
  else if program = "." || program = ".." then some .denied
  else if program.toList.contains '/' then
    if programs.contains (programName program) && programName program ≠ program then none
    else match files.lookup directory program with
      | .ok _ => some .denied
      | .error fault => some fault
  else if programs.contains program && start.findsPrograms then none
  else some .notFound

/-- Carries out a program with arguments. -/
def run (program : String) (arguments : List String) (environment : Table String)
    (directory : String) (files : FileTree) (deadline : Nat) : Outcome :=
  let start : State :=
    { dialect := .extended, name := program, vars := environment
      exported := environment.keys, directory, files, deadline }
  if deadline = 0 then ⟨.late, [], [], files⟩
  else
    let (s, flow) : State × Flow :=
      match dialectOf? program with
      | none => callName start program arguments manySteps
      | some dialect =>
        let kept := environment.entries.filter fun e => dialect = .extended || isVariable e.1
        let start :=
          let start := { start with dialect, vars := Table.ofList kept }
          (start.assign "PWD" directory).publish "PWD"
        let start := prepared start
        let text := ((Utilities.splitOptions arguments).2.headD "").toList
        let (s, flow) := script start text manySteps
        match s.atEnd, flow with
        | some action, .next => ((script s action.toList manySteps).1.withStatus s.status, flow)
        | some action, .stop => ((script s action.toList manySteps).1.withStatus s.status, flow)
        | _, _ => (s, flow)
    let ending : Ending := match flow with
      | .killed signal => .killed signal
      | .late => .late
      | _ => .exited s.status
    ⟨ending, s.written 0, s.written 1, s.files⟩

end ChangeGate.Shell
