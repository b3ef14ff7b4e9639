import ChangeGate.Error
import ChangeGate.Table
import ChangeGate.Text.Lines
import ChangeGate.Text.Utf8

/-!
A tree of files. A path is taken apart at its slashes; a relative one is seen from a directory. The
root is always there, and every other file or directory lies in a directory.
-/

namespace ChangeGate

inductive FileTree.Entry where
  | file (content : List UInt8)
  | directory
deriving DecidableEq, Repr

/-- A tree of files: what there is, by absolute path. -/
structure FileTree where
  entries : Table FileTree.Entry := ∅
deriving Repr

namespace FileTree

/-- The names of an absolute path, the root first. -/
abbrev Names := List String

/-- Goes from a directory along the parts of a path. -/
def follow (directory : Names) : List String → Names
  | [] => directory
  | part :: rest =>
    if part.isEmpty || part = "." then follow directory rest
    else if part = ".." then follow directory.dropLast rest
    else follow (directory ++ [part]) rest

/-- The parts of a path between its slashes. -/
def parts (path : String) : List String :=
  (Text.pieces '/' path.toList).map String.ofList

/-- The names that a path stands for when it is seen from a directory. -/
def names (directory path : String) : Names :=
  if path.startsWith "/" then follow [] (parts path)
  else follow (follow [] (parts directory)) (parts path)

def absolute (names : Names) : String :=
  if names.isEmpty then "/" else String.join (names.map ("/" ++ ·))

def entry? (t : FileTree) (names : Names) : Option Entry :=
  if names.isEmpty then some .directory else t.entries.get? (absolute names)

/-- Looks names up from a directory on: every name but the last must lead to a directory. -/
def walk (t : FileTree) (done : Names) : List String → Except IoFault Entry
  | [] => match t.entry? done with
    | some e => .ok e
    | none => .error .notFound
  | name :: rest => match t.entry? done with
    | some .directory => walk t (done ++ [name]) rest
    | some (.file _) => .error .notADirectory
    | none => .error .notFound

/-- Looks a path up. A path that ends in a slash must lead to a directory. -/
def lookup (t : FileTree) (directory path : String) : Except IoFault Entry :=
  if path.isEmpty then .error .notFound
  else match walk t [] (names directory path) with
    | .ok (.file content) =>
      if path.endsWith "/" then .error .notADirectory else .ok (.file content)
    | result => result

def exists? (t : FileTree) (directory path : String) : Bool := (t.lookup directory path).isOk

def isDirectory (t : FileTree) (directory path : String) : Bool :=
  match t.lookup directory path with
  | .ok .directory => true
  | _ => false

def read (t : FileTree) (directory path : String) : Except IoFault (List UInt8) :=
  match t.lookup directory path with
  | .ok (.file content) => .ok content
  | .ok .directory => .error .isADirectory
  | .error fault => .error fault

def readText (t : FileTree) (directory path : String) : Except IoFault String := do
  match Text.Utf8.strict? (← t.read directory path) with
  | some text => .ok (String.ofList text)
  | none => .error .invalidText

/-- Puts an entry in the place of what names lead to. -/
def set (t : FileTree) (names : Names) (e : Entry) : FileTree :=
  ⟨t.entries.insert (absolute names) e⟩

/-- Writes a file. Its directory must be there. -/
def write (t : FileTree) (directory path : String) (content : List UInt8) :
    Except IoFault FileTree :=
  let target := names directory path
  if path.isEmpty then .error .notFound
  else match walk t [] target with
    | .ok .directory => .error .isADirectory
    | .ok (.file _) =>
      if path.endsWith "/" then .error .notADirectory else .ok (t.set target (.file content))
    | .error .notFound =>
      match walk t [] target.dropLast with
      | .ok .directory =>
        if path.endsWith "/" then .error .isADirectory else .ok (t.set target (.file content))
      | .ok (.file _) => .error .notADirectory
      | .error fault => .error fault
    | .error fault => .error fault

/-- Whether an absolute path is another one or lies below it. -/
def isBelow (top path : String) : Bool := path == top || path.startsWith (top ++ "/")

/-- Removes what names lead to, with all below it. -/
def remove (t : FileTree) (names : Names) : FileTree :=
  ⟨t.entries.filterKeys fun path => !isBelow (absolute names) path⟩

/-- Puts an empty directory in the place of what names lead to. -/
def makeDirectory (t : FileTree) (names : Names) : FileTree :=
  (t.remove names).set names .directory

/-- Makes the directories that lead along the names, where they are not there. -/
def makeAlong (t : FileTree) (done : Names) : List String → Except IoFault FileTree
  | [] => .ok t
  | name :: rest =>
    let target := done ++ [name]
    match t.entry? target with
    | some .directory => makeAlong t target rest
    | some (.file _) =>
      .error (if rest.isEmpty then .alreadyThere else .notADirectory)
    | none => makeAlong (t.makeDirectory target) target rest

/-- Makes a directory with all that lead to it. -/
def makeDirectories (t : FileTree) (directory path : String) : Except IoFault FileTree :=
  if path.isEmpty then .ok t else makeAlong t [] (names directory path)

/-- The names of what lies directly in a directory, in order. -/
def list (t : FileTree) (names : Names) : List String :=
  let top := if names.isEmpty then "/" else absolute names ++ "/"
  (t.entries.keys.filterMap fun path =>
    if path.startsWith top then
      let rest := (path.drop top.length).toString
      if rest.isEmpty || rest.toList.contains '/' then none else some rest
    else none).mergeSort fun a b => decide (a ≤ b)

/-- The files below a directory, with their paths seen from there, in order. -/
def filesBelow (t : FileTree) (names : Names) : List (String × List UInt8) :=
  let top := absolute names ++ "/"
  (t.entries.entries.filterMap fun (path, e) =>
    match e with
    | .file content =>
      if path.startsWith top then some ((path.drop top.length).toString, content) else none
    | .directory => none).mergeSort fun a b => decide (a.1 ≤ b.1)

/-- What has to be done to the entries of a tree so that it becomes another one: entries to be made,
with their directories before them, and paths to be removed. -/
def changes (before after : FileTree) : List (String × Entry) × List String :=
  let made := after.entries.entries.filter fun e => before.entries.get? e.1 ≠ some e.2
  let removed := before.entries.keys.filter fun path => !after.entries.contains path
  (made.mergeSort fun a b => decide (a.1 ≤ b.1), removed)

end FileTree

end ChangeGate
