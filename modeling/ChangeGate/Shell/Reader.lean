import ChangeGate.Shell.Syntax

/-!
Reading commands. Words are taken apart into their parts while they are read, and a command inside a
word is read as part of it. A text that follows the line of its command is cut out of the input
when its end mark is met.
-/

namespace ChangeGate.Shell

inductive SyntaxFault where
  | unclosed (mark : String)
  /-- Something stands where it must not; another word may be needed there. -/
  | unexpected (what : String) (needed : Option String := none)
  | badExpansion
  | badVariable
  | tooLong
deriving DecidableEq, Repr

/-- Whether a character may start a name. -/
def startsName (c : Char) : Bool := c.isAlpha || c == '_'

/-- Whether a character may stand in a name. -/
def inName (c : Char) : Bool := c.isAlphanum || c == '_'

def endsWord (c : Char) : Bool := " \t\n;&|<>()".toList.contains c

/-- Whether the end of a word comes next. -/
def wordEnds : List Char → Bool
  | [] => true
  | c :: _ => endsWord c

/-- Drops blanks, joined lines and a comment. -/
def skipBlanks (inComment : Bool) : List Char → List Char
  | [] => []
  | '\\' :: '\n' :: rest => if inComment then '\n' :: rest else skipBlanks false rest
  | c :: rest =>
    if inComment then (if c = '\n' then c :: rest else skipBlanks true rest)
    else if c = ' ' || c = '\t' then skipBlanks false rest
    else if c = '#' then skipBlanks true rest
    else c :: rest

/-- Drops blanks, comments and line ends. -/
def skipLines (inComment : Bool) : List Char → List Char
  | [] => []
  | '\\' :: '\n' :: rest => skipLines false rest
  | c :: rest =>
    if c = '\n' then skipLines false rest
    else if inComment then skipLines true rest
    else if c = ' ' || c = '\t' then skipLines false rest
    else if c = '#' then skipLines true rest
    else c :: rest

/-- The word at the start of a text, if it is one of letters and braces without quotes. -/
def peekWord (cs : List Char) : String :=
  let isPlain (c : Char) : Bool := c.isAlpha || c == '{' || c == '}' || c == '!' || c == '['
  let word := cs.takeWhile isPlain
  if wordEnds (cs.dropWhile isPlain) then String.ofList word else ""

/-- What a text that ends too early has in its place. -/
def endOfFile : String := "end of file"

/-- The token at the start of a text, for messages. -/
def tokenAt (cs : List Char) : String :=
  match cs with
  | [] => endOfFile
  | '\n' :: _ => "newline"
  | c :: d :: _ =>
    if c = d && (c = ';' || c = '&' || c = '|') then String.ofList [c, d]
    else if endsWord c then String.singleton c
    else String.ofList (cs.takeWhile (!endsWord ·))
  | [c] => String.singleton c

/-- Drops a word that is known to come next. -/
def dropWord (word : String) (cs : List Char) : List Char := cs.drop word.length

/-- Whether a word ends what stands before it. -/
def isCloser (word : String) : Bool :=
  ["then", "else", "elif", "fi", "do", "done", "esac", "\x7d"].contains word

/-- Requires a word, after blanks and line ends. -/
def expect (word : String) (cs : List Char) : Except SyntaxFault (List Char) :=
  let cs := skipLines false cs
  if peekWord cs = word then .ok (dropWord word cs)
  else .error (.unexpected (tokenAt cs) (some word))

/-- The text before a single quote, and what follows the quote. -/
def untilQuote (done : List Char) : List Char → Except SyntaxFault (String × List Char)
  | [] => .error (.unclosed "'")
  | '\'' :: rest => .ok (String.ofList done.reverse, rest)
  | c :: rest => untilQuote (c :: done) rest

/-- The command between backquotes, and what follows them. -/
def untilBackquote (done : List Char) : List Char → Except SyntaxFault (List Char × List Char)
  | [] => .error (.unclosed "`")
  | '`' :: rest => .ok (done.reverse, rest)
  | '\\' :: c :: rest =>
    if c = '`' || c = '\\' || c = '$' then untilBackquote (c :: done) rest
    else untilBackquote (c :: '\\' :: done) rest
  | c :: rest => untilBackquote (c :: done) rest

/-- The escape sequences of a quoted text that starts with a dollar sign. -/
def escapedChar (c : Char) : Char :=
  match c with
  | 'n' => '\n'
  | 't' => '\t'
  | 'r' => '\r'
  | 'a' => '\x07'
  | 'b' => '\x08'
  | 'e' => '\x1b'
  | 'f' => '\x0c'
  | 'v' => '\x0b'
  | c => c

/-- The text of a quotation with escapes, and what follows it. -/
def untilEscapedQuote (done : List Char) : List Char → Except SyntaxFault (String × List Char)
  | [] => .error (.unclosed "'")
  | '\'' :: rest => .ok (String.ofList done.reverse, rest)
  | '\\' :: c :: rest => untilEscapedQuote (escapedChar c :: done) rest
  | c :: rest => untilEscapedQuote (c :: done) rest

/-- The name of the parameter after a dollar sign, if there is one. -/
def parameterName (cs : List Char) : Option (String × List Char) :=
  match cs with
  | [] => none
  | c :: rest =>
    if startsName c then some (String.ofList (cs.takeWhile inName), cs.dropWhile inName)
    else if c.isDigit || "?$!#@*-".toList.contains c then some (String.singleton c, rest)
    else none

/-- The name of the parameter after a dollar sign and a brace. -/
def bracedName (cs : List Char) : Option (String × List Char) :=
  match cs with
  | c :: _ =>
    if c.isDigit then some (String.ofList (cs.takeWhile Char.isDigit), cs.dropWhile Char.isDigit)
    else parameterName cs
  | [] => none

/-- The operator after the name of a parameter. -/
def operatorOf (dialect : Dialect) (cs : List Char) : Option (Operator × List Char) :=
  let extended (operator : Operator) (rest : List Char) : Option (Operator × List Char) :=
    if dialect = .extended then some (operator, rest) else none
  let choose (orEmpty : Bool) : List Char → Option (Operator × List Char)
    | '-' :: rest => some (.default orEmpty, rest)
    | '=' :: rest => some (.assign orEmpty, rest)
    | '+' :: rest => some (.alternative orEmpty, rest)
    | '?' :: rest => some (.required orEmpty, rest)
    | _ => none
  match cs with
  | ':' :: rest => (choose true rest).or (extended .slice rest)
  | '/' :: '/' :: rest => extended (.replace true) rest
  | '/' :: rest => extended (.replace false) rest
  | '^' :: '^' :: rest => extended (.letters true true) rest
  | '^' :: rest => extended (.letters true false) rest
  | ',' :: ',' :: rest => extended (.letters false true) rest
  | ',' :: rest => extended (.letters false false) rest
  | '%' :: '%' :: rest => some (.dropEnd true, rest)
  | '%' :: rest => some (.dropEnd false, rest)
  | '#' :: '#' :: rest => some (.dropStart true, rest)
  | '#' :: rest => some (.dropStart false, rest)
  | _ => choose false cs

/-- The lines up to an end mark, and what follows it. -/
def untilMark (mark : List Char) (stripTabs : Bool) (done : List Char) (fuel : Nat)
    (cs : List Char) : List Char × List Char :=
  match fuel, cs with
  | 0, _ => (done, [])
  | _, [] => (done, [])
  | fuel + 1, cs =>
    let line := cs.takeWhile (· ≠ '\n')
    let rest := (cs.dropWhile (· ≠ '\n')).drop 1
    let line := if stripTabs then line.dropWhile (· = '\t') else line
    if line = mark then (done, rest)
    else untilMark mark stripTabs (done ++ line ++ ['\n']) fuel rest

/-- The characters of a word whose parts are all texts, and whether a part is quoted. -/
def plainWord : Word → List Char × Bool
  | [] => ([], false)
  | .text quoted s :: rest =>
    let (cs, q) := plainWord rest
    (s.toList ++ cs, quoted || q)
  | _ :: rest => plainWord rest

/-- The channel, the kind and the length of the mark of a redirection at the start of a text. -/
def redirectionMark (cs : List Char) : Option (Nat × Redirection × Bool × List Char) :=
  let mark (channel : Option Nat) : List Char → Option (Nat × Redirection × Bool × List Char)
    | '>' :: '>' :: rest => some (channel.getD 1, .append, false, rest)
    | '>' :: '&' :: rest => some (channel.getD 1, .duplicate, false, rest)
    | '>' :: '|' :: rest => some (channel.getD 1, .output, false, rest)
    | '>' :: rest => some (channel.getD 1, .output, false, rest)
    | '<' :: '<' :: '-' :: rest => some (channel.getD 0, .text, true, rest)
    | '<' :: '<' :: rest => some (channel.getD 0, .text, false, rest)
    | '<' :: '&' :: rest => some (channel.getD 0, .duplicate, false, rest)
    | '<' :: rest => some (channel.getD 0, .input, false, rest)
    | _ => none
  match cs with
  | c :: rest =>
    if c.isDigit then mark (some (c.toNat - '0'.toNat)) rest else mark none cs
  | [] => none

/-- Cuts an expression at its first semicolon. -/
def cutAtSemicolon : Word → Word × Word
  | [] => ([], [])
  | .text _ ";" :: rest => ([], rest)
  | part :: rest =>
    let (before, after) := cutAtSemicolon rest
    (part :: before, after)

structure Redirect where
  channel : Nat
  mode : Redirection
  target : Word

/-- A command with redirections, the first of which is made first. -/
def withRedirects (body : Command) (redirects : List Redirect) : Command :=
  redirects.foldr (fun r c => .redirected c r.channel r.mode r.target) body

/-- What has been read of a simple command. -/
structure Parts where
  line : Nat := 0
  assignments : List (String × Word) := []
  words : List Word := []
  redirects : List Redirect := []

def Parts.command (p : Parts) : Command :=
  withRedirects (.simple p.line p.assignments.reverse p.words.reverse) p.redirects.reverse

/-- The name of an assignment at the start of a text, and what follows the equals sign. -/
def assignmentName (cs : List Char) : Option (String × List Char) :=
  match cs with
  | [] => none
  | c :: _ =>
    if startsName c then
      match cs.dropWhile inName with
      | '=' :: rest => some (String.ofList (cs.takeWhile inName), rest)
      | _ => none
    else none

/-- What surrounds the reading of commands. -/
structure Setting where
  dialect : Dialect
  lineEnds : Nat
  whole : List Char

/-- The line in which a rest of the text starts. -/
def Setting.line (s : Setting) (rest : List Char) : Nat := s.lineEnds + 1 - rest.count '\n'

mutual

def readDollar (s : Setting) (quoted : Bool) (cs : List Char) :
    Nat → Except SyntaxFault (List Part × List Char)
  | 0 => .error .tooLong
  | fuel + 1 =>
    match cs with
    | '(' :: '(' :: rest => do
      let (expression, rest) ← readExpression s 0 [] rest fuel
      return ([.arithmetic quoted expression], rest)
    | '(' :: rest => do
      let (body, rest) ← readList s rest fuel
      match skipLines false rest with
      | ')' :: rest => return ([.substitution quoted body], rest)
      | rest => throw (.unexpected (tokenAt rest) (some ")"))
    | '{' :: '#' :: rest =>
      match bracedName rest with
      | some (name, '}' :: rest) => .ok ([.parameter quoted name .length []], rest)
      | _ =>
        match rest with
        | '}' :: rest => .ok ([.parameter quoted "#" .value []], rest)
        | _ => .error .badExpansion
    | '{' :: rest =>
      match bracedName rest with
      | none => .error .badExpansion
      | some (name, '}' :: rest) => .ok ([.parameter quoted name .value []], rest)
      | some (name, rest) =>
        match operatorOf s.dialect rest with
        | none => .error .badExpansion
        | some (operator, rest) => do
          let (word, rest) ← readBraced s quoted [] rest fuel
          return ([.parameter quoted name operator word], rest)
    | '\'' :: rest =>
      if s.dialect = .extended && !quoted then do
        let (text, rest) ← untilEscapedQuote [] rest
        return ([.text true text], rest)
      else .ok ([.text quoted "$"], cs)
    | _ =>
      match parameterName cs with
      | some (name, rest) => .ok ([.parameter quoted name .value []], rest)
      | none => .ok ([.text quoted "$"], cs)

/-- Reads the word of an operator up to the closing brace. -/
def readBraced (s : Setting) (quoted : Bool) (done : Word) (cs : List Char) :
    Nat → Except SyntaxFault (Word × List Char)
  | 0 => .error .tooLong
  | fuel + 1 =>
    match cs with
    | [] => .error (.unclosed "\x7d")
    | '}' :: rest => .ok (done.reverse, rest)
    | c :: rest => do
      let (parts, rest) ← readPart s quoted (c :: rest) fuel
      readBraced s quoted (parts.reverse ++ done) rest fuel

/-- Reads an expression up to its two closing brackets. -/
def readExpression (s : Setting) (depth : Nat) (done : Word) (cs : List Char) :
    Nat → Except SyntaxFault (Word × List Char)
  | 0 => .error .tooLong
  | fuel + 1 =>
    match cs, depth with
    | [], _ => .error (.unclosed ")")
    | ')' :: ')' :: rest, 0 => .ok (done.reverse, rest)
    | ')' :: rest, depth => readExpression s (depth - 1) (.text true ")" :: done) rest fuel
    | '(' :: rest, depth => readExpression s (depth + 1) (.text true "(" :: done) rest fuel
    | '$' :: rest, depth => do
      let (parts, rest) ← readDollar s true rest fuel
      readExpression s depth (parts.reverse ++ done) rest fuel
    | c :: rest, depth => readExpression s depth (.text true (String.singleton c) :: done) rest fuel

def readPart (s : Setting) (quoted : Bool) (cs : List Char) :
    Nat → Except SyntaxFault (List Part × List Char)
  | 0 => .error .tooLong
  | fuel + 1 =>
    match cs with
    | [] => .ok ([], [])
    | '\'' :: rest =>
      if quoted then .ok ([.text true "'"], rest)
      else do
        let (text, rest) ← untilQuote [] rest
        return ([.text true text], rest)
    | '"' :: rest => do
      let (parts, rest) ← readQuoted s [] rest fuel
      match parts with
      | [.parameter true "@" .value []] => return (parts, rest)
      | _ => return (.text true "" :: parts, rest)
    | '\\' :: '\n' :: rest => .ok ([], rest)
    | '\\' :: c :: rest =>
      if quoted && !"$`\"\\\x7d".toList.contains c then
        .ok ([.text true (String.ofList ['\\', c])], rest)
      else .ok ([.text true (String.singleton c)], rest)
    | '`' :: rest => do
      let (inner, rest) ← untilBackquote [] rest
      let (body, _) ← readList s inner fuel
      return ([.substitution quoted body], rest)
    | '$' :: rest => readDollar s quoted rest fuel
    | c :: rest => .ok ([.text quoted (String.singleton c)], rest)

/-- Reads the parts between double quotes. -/
def readQuoted (s : Setting) (done : Word) (cs : List Char) :
    Nat → Except SyntaxFault (Word × List Char)
  | 0 => .error .tooLong
  | fuel + 1 =>
    match cs with
    | [] => .error (.unclosed "\"")
    | '"' :: rest => .ok (done.reverse, rest)
    | '\\' :: c :: rest =>
      if c = '\n' then readQuoted s done rest fuel
      else if "$`\"\\".toList.contains c then
        readQuoted s (.text true (String.singleton c) :: done) rest fuel
      else readQuoted s (.text true (String.ofList ['\\', c]) :: done) rest fuel
    | c :: rest => do
      let (parts, rest) ← readPart s true (c :: rest) fuel
      readQuoted s (parts.reverse ++ done) rest fuel

def readWord (s : Setting) (done : Word) (cs : List Char) :
    Nat → Except SyntaxFault (Word × List Char)
  | 0 => .error .tooLong
  | fuel + 1 =>
    if wordEnds cs then .ok (done.reverse, cs)
    else do
      let (parts, rest) ← readPart s false cs fuel
      readWord s (parts.reverse ++ done) rest fuel

/-- Reads the parts of a text that stands after the line of its command. -/
def readText (s : Setting) (done : Word) (cs : List Char) :
    Nat → Except SyntaxFault (Word × List Char)
  | 0 => .error .tooLong
  | fuel + 1 =>
    match cs with
    | [] => .ok (done.reverse, [])
    | '\\' :: c :: rest =>
      if c = '\n' then readText s done rest fuel
      else if "$`\\".toList.contains c then
        readText s (.text true (String.singleton c) :: done) rest fuel
      else readText s (.text true (String.ofList ['\\', c]) :: done) rest fuel
    | '"' :: rest => readText s (.text true "\"" :: done) rest fuel
    | c :: rest => do
      let (parts, rest) ← readPart s true (c :: rest) fuel
      readText s (parts.reverse ++ done) rest fuel

/-- Reads a redirection whose mark has been read. -/
def readRedirect (s : Setting) (channel : Nat) (mode : Redirection) (stripTabs : Bool)
    (cs : List Char) : Nat → Except SyntaxFault (Redirect × List Char)
  | 0 => .error .tooLong
  | fuel + 1 => do
    let (word, rest) ← readWord s [] (skipBlanks false cs) fuel
    match mode with
    | .text =>
      let (mark, quoted) := plainWord word
      let line := rest.takeWhile (· ≠ '\n')
      let (body, after) :=
        untilMark mark stripTabs [] (rest.length + 1) ((rest.dropWhile (· ≠ '\n')).drop 1)
      let content ←
        if quoted then pure [Part.text true (String.ofList body)]
        else (·.1) <$> readText s [] body fuel
      return (⟨channel, mode, content⟩, line ++ '\n' :: after)
    | _ => return (⟨channel, mode, word⟩, rest)

/-- Reads the redirections after a command that is no simple one. -/
def readRedirects (s : Setting) (body : Command) (done : List Redirect) (cs : List Char) :
    Nat → Except SyntaxFault (Command × List Char)
  | 0 => .error .tooLong
  | fuel + 1 =>
    let cs := skipBlanks false cs
    match redirectionMark cs with
    | none => .ok (withRedirects body done.reverse, cs)
    | some (channel, mode, stripTabs, rest) => do
      let (r, rest) ← readRedirect s channel mode stripTabs rest fuel
      readRedirects s body (r :: done) rest fuel

def readSimple (s : Setting) (p : Parts) (cs : List Char) :
    Nat → Except SyntaxFault (Command × List Char)
  | 0 => .error .tooLong
  | fuel + 1 =>
    let cs := skipBlanks false cs
    match redirectionMark cs with
    | some (channel, mode, stripTabs, rest) => do
      let (r, rest) ← readRedirect s channel mode stripTabs rest fuel
      readSimple s { p with redirects := r :: p.redirects } rest fuel
    | none =>
      if wordEnds cs then
        match cs, p.words, p.assignments with
        | '(' :: ')' :: rest, [word], [] => do
          let (body, rest) ← readCommand s (skipLines false rest) fuel
          return (.define (String.ofList (plainWord word).1) body, rest)
        | '(' :: _, _ :: _, _ => .error (.unexpected "(")
        | _, _, _ => .ok (p.command, cs)
      else
        match (if p.words.isEmpty then assignmentName cs else none) with
        | some (name, rest) => do
          let (word, rest) ← readWord s [] rest fuel
          readSimple s { p with assignments := (name, word) :: p.assignments } rest fuel
        | none => do
          let (word, rest) ← readWord s [] cs fuel
          readSimple s { p with words := word :: p.words } rest fuel

/-- Reads the words of a loop up to the end of their line. -/
def readWords (s : Setting) (done : List Word) (cs : List Char) :
    Nat → Except SyntaxFault (List Word × List Char)
  | 0 => .error .tooLong
  | fuel + 1 =>
    let cs := skipBlanks false cs
    if wordEnds cs then .ok (done.reverse, cs)
    else do
      let (word, rest) ← readWord s [] cs fuel
      readWords s (word :: done) rest fuel

/-- Reads the words of a condition up to its closing brackets. -/
def readCondition (s : Setting) (done : List Word) (cs : List Char) :
    Nat → Except SyntaxFault (List Word × List Char)
  | 0 => .error .tooLong
  | fuel + 1 =>
    let cs := skipLines false cs
    match cs with
    | [] => .error (.unexpected endOfFile (some "]]"))
    | '&' :: '&' :: rest => readCondition s ([.text false "&&"] :: done) rest fuel
    | '|' :: '|' :: rest => readCondition s ([.text false "||"] :: done) rest fuel
    | c :: rest => do
      if c = ']' && rest.head? = some ']' && wordEnds (rest.drop 1) then
        return (done.reverse, rest.drop 1)
      if c = '(' || c = ')' || c = '<' || c = '>' then
        readCondition s ([.text false (String.singleton c)] :: done) rest fuel
      else if endsWord c then throw (.unexpected (tokenAt cs))
      else
        let (word, rest) ← readWord s [] cs fuel
        readCondition s (word :: done) rest fuel

def readChoice (s : Setting) (cs : List Char) : Nat → Except SyntaxFault (Command × List Char)
  | 0 => .error .tooLong
  | fuel + 1 => do
    let (condition, rest) ← readList s cs fuel
    let (yes, rest) ← readList s (← expect "then" rest) fuel
    let rest := skipLines false rest
    match peekWord rest with
    | "elif" =>
      let (no, rest) ← readChoice s (dropWord "elif" rest) fuel
      return (.choice condition yes no, rest)
    | "else" =>
      let (no, rest) ← readList s (dropWord "else" rest) fuel
      return (.choice condition yes no, ← expect "fi" rest)
    | _ => return (.choice condition yes .nothing, ← expect "fi" rest)

def readPatterns (s : Setting) (done : List Word) (cs : List Char) :
    Nat → Except SyntaxFault (List Word × List Char)
  | 0 => .error .tooLong
  | fuel + 1 => do
    let (word, rest) ← readWord s [] (skipBlanks false cs) fuel
    match skipBlanks false rest with
    | '|' :: rest => readPatterns s (word :: done) rest fuel
    | ')' :: rest => return ((word :: done).reverse, rest)
    | rest => throw (.unexpected (tokenAt rest) (some ")"))

def readArms (s : Setting) (done : List (List Word × Command)) (cs : List Char) :
    Nat → Except SyntaxFault ((List (List Word × Command)) × List Char)
  | 0 => .error .tooLong
  | fuel + 1 => do
    let cs := skipLines false cs
    if peekWord cs = "esac" then return (done.reverse, dropWord "esac" cs)
    let cs := match cs with
      | '(' :: rest => rest
      | cs => cs
    let (patterns, rest) ← readPatterns s [] cs fuel
    let (body, rest) ← readList s rest fuel
    match skipLines false rest with
    | ';' :: ';' :: rest => readArms s ((patterns, body) :: done) rest fuel
    | rest => return (((patterns, body) :: done).reverse, ← expect "esac" rest)

def readCommand (s : Setting) (cs : List Char) : Nat → Except SyntaxFault (Command × List Char)
  | 0 => .error .tooLong
  | fuel + 1 => do
    let cs := skipBlanks false cs
    match cs with
    | '(' :: '(' :: rest =>
      if s.dialect = .extended then
        let (expression, rest) ← readExpression s 0 [] rest fuel
        return ← readRedirects s (.compute (s.line cs) expression) [] rest fuel
      else pure ()
    | _ => pure ()
    match cs with
    | '(' :: rest =>
      let (body, rest) ← readList s rest fuel
      match skipLines false rest with
      | ')' :: rest => readRedirects s (.subshell body) [] rest fuel
      | rest => throw (.unexpected (tokenAt rest) (some ")"))
    | _ =>
      match peekWord cs with
      | "\x7b" =>
        let (body, rest) ← readList s (dropWord "\x7b" cs) fuel
        readRedirects s body [] (← expect "\x7d" rest) fuel
      | "if" =>
        let (body, rest) ← readChoice s (dropWord "if" cs) fuel
        readRedirects s body [] rest fuel
      | "while" =>
        let (condition, rest) ← readList s (dropWord "while" cs) fuel
        let (body, rest) ← readList s (← expect "do" rest) fuel
        readRedirects s (.loop false condition body) [] (← expect "done" rest) fuel
      | "until" =>
        let (condition, rest) ← readList s (dropWord "until" cs) fuel
        let (body, rest) ← readList s (← expect "do" rest) fuel
        readRedirects s (.loop true condition body) [] (← expect "done" rest) fuel
      | "[[" =>
        if s.dialect = .standard then readSimple s { line := s.line cs } cs fuel
        else
          let (words, rest) ← readCondition s [] (dropWord "[[" cs) fuel
          readRedirects s (.condition (s.line cs) words) [] rest fuel
      | "for" =>
        match skipBlanks false (dropWord "for" cs), s.dialect with
        | '(' :: '(' :: rest, .extended =>
          let (expressions, rest) ← readExpression s 0 [] rest fuel
          let (start, others) := cutAtSemicolon expressions
          let (test, next) := cutAtSemicolon others
          let rest := match skipLines false rest with
            | ';' :: rest => rest
            | rest => rest
          let (body, rest) ← readList s (← expect "do" rest) fuel
          return ← readRedirects s (.count start test next body) [] (← expect "done" rest) fuel
        | '(' :: _, .standard => throw .badVariable
        | _, _ => pure ()
        let (name, rest) ← readWord s [] (skipBlanks false (dropWord "for" cs)) fuel
        let rest := skipLines false rest
        let (words, rest) ←
          if peekWord rest = "in" then do
            let (words, rest) ← readWords s [] (dropWord "in" rest) fuel
            pure (some words, rest)
          else pure (none, rest)
        let rest := match skipLines false rest with
          | ';' :: rest => rest
          | rest => rest
        let (body, rest) ← readList s (← expect "do" rest) fuel
        let name := String.ofList (plainWord name).1
        readRedirects s (.each name words body) [] (← expect "done" rest) fuel
      | "case" =>
        let (word, rest) ← readWord s [] (skipBlanks false (dropWord "case" cs)) fuel
        let (arms, rest) ← readArms s [] (← expect "in" rest) fuel
        readRedirects s (.cases word arms) [] rest fuel
      | word =>
        if isCloser word then throw (.unexpected word)
        else if word = "function" && s.dialect = .extended then
          let (name, rest) ← readWord s [] (skipBlanks false (dropWord "function" cs)) fuel
          let rest := match skipBlanks false rest with
            | '(' :: ')' :: rest => rest
            | rest => rest
          let (body, rest) ← readCommand s (skipLines false rest) fuel
          return (.define (String.ofList (plainWord name).1) body, rest)
        else if wordEnds cs && (redirectionMark cs).isNone then
          throw (.unexpected (tokenAt cs))
        else readSimple s { line := s.line cs } cs fuel

def readPipeline (s : Setting) (cs : List Char) : Nat → Except SyntaxFault (Command × List Char)
  | 0 => .error .tooLong
  | fuel + 1 => do
    let cs := skipBlanks false cs
    if peekWord cs = "!" then
      let (body, rest) ← readPipeline s (dropWord "!" cs) fuel
      return (.not body, rest)
    let (first, rest) ← readCommand s cs fuel
    match skipBlanks false rest with
    | '|' :: '|' :: rest => return (first, '|' :: '|' :: rest)
    | '|' :: rest =>
      let (second, rest) ← readPipeline s (skipLines false rest) fuel
      return (.pipe first second, rest)
    | rest => return (first, rest)

/-- Reads what follows a pipeline, if it is joined by the success or the failure of what stands
before it. -/
def readJoined (s : Setting) (first : Command) (cs : List Char) :
    Nat → Except SyntaxFault (Command × List Char)
  | 0 => .error .tooLong
  | fuel + 1 => do
    match skipBlanks false cs with
    | '&' :: '&' :: rest =>
      let (second, rest) ← readPipeline s (skipLines false rest) fuel
      readJoined s (.and first second) rest fuel
    | '|' :: '|' :: rest =>
      let (second, rest) ← readPipeline s (skipLines false rest) fuel
      readJoined s (.or first second) rest fuel
    | rest => return (first, rest)

/-- Reads commands up to the end of a line; answers also whether there may be more. -/
def readLine (s : Setting) (cs : List Char) : Nat → Except SyntaxFault (Command × List Char)
  | 0 => .error .tooLong
  | fuel + 1 => do
    let (first, rest) ← readPipeline s cs fuel
    let (first, rest) ← readJoined s first rest fuel
    let goOn (first : Command) (rest : List Char) : Except SyntaxFault (Command × List Char) :=
      let rest := skipBlanks false rest
      if rest.isEmpty || rest.head? = some '\n' || rest.head? = some ')' ||
          isCloser (peekWord rest) || rest.take 2 = [';', ';'] then .ok (first, rest)
      else do
        let (second, rest) ← readLine s rest fuel
        return (.sequence first second, rest)
    match skipBlanks false rest with
    | ';' :: ';' :: rest => return (first, ';' :: ';' :: rest)
    | ';' :: rest => goOn first rest
    | '&' :: rest => goOn (.background first) rest
    | rest => return (first, rest)

/-- Reads commands up to something that ends them. -/
def readList (s : Setting) (cs : List Char) : Nat → Except SyntaxFault (Command × List Char)
  | 0 => .error .tooLong
  | fuel + 1 => do
    let cs := skipLines false cs
    if cs.isEmpty || cs.head? = some ')' || isCloser (peekWord cs) || cs.take 2 = [';', ';'] then
      return (.nothing, cs)
    let (first, rest) ← readLine s cs fuel
    match rest with
    | '\n' :: rest =>
      let (second, rest) ← readList s rest fuel
      match second with
      | .nothing => return (first, rest)
      | second => return (.sequence first second, rest)
    | rest => return (first, rest)

end

end ChangeGate.Shell
