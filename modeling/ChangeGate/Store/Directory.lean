import ChangeGate.Ident
import ChangeGate.Json.Draft
import ChangeGate.Json.Printer
import ChangeGate.Store.Basic

/-!
The store that other processes can see. Each run has a directory, and each key a file in it. A value
is written to a staging file first and then published by giving that file a second name, which fails
if the name is taken: so a reader sees either nothing or a whole value, and of several writers one
wins. A write is a sequence of steps between which others may act.
-/

namespace ChangeGate

/-- The files of a directory: their texts by name. -/
abbrev Files := Table String

/-- A directory of a run; `none` when there is none. -/
abbrev Directory := Option Files

namespace Directory

/-- Whether a character may stand in a key. -/
def isKeyChar (c : Char) : Bool := c.isAlphanum || c == '_' || c == '-' || c == '.'

/-- Whether a text is a key: not empty, of letters, digits and the marks `_`, `-` and `.`, and not
starting with a point. -/
def isKey (key : String) : Bool :=
  !key.isEmpty && !key.startsWith "." && key.toList.all isKeyChar

def entryName (key : String) : String := key ++ ".json"

/-- The name of a staging file for a key. -/
def stagingName (key : String) (tag : Uuid) : String := "." ++ key ++ "." ++ tag.text ++ ".tmp"

inductive Phase where
  | create
  | fill
  /-- The staging file is to be given the name of the entry. -/
  | link
  | remove (linked : Except Error Unit)
  | done (result : Except Error Unit)

structure Write where
  key : String
  /-- What tells the staging file from those of other writes. -/
  tag : Uuid
  text : String
  phase : Phase := .create

/-- Gives a staging file the name of its entry. -/
def link (w : Write) (files : Files) : Except Error Unit × Files :=
  match files.get? (stagingName w.key w.tag) with
  | none => (.error (.io .notFound), files)
  | some text =>
    if files.contains (entryName w.key) then (.error (.duplicateWrite w.key), files)
    else (.ok (), files.insert (entryName w.key) text)

def Write.step (w : Write) (dir : Directory) : Write × Directory :=
  match w.phase, dir with
  | .create, none => ({ w with phase := .done (.error (.io .notFound)) }, none)
  | .create, some files =>
    ({ w with phase := .fill }, some (files.insert (stagingName w.key w.tag) ""))
  | .fill, none => ({ w with phase := .link }, none)
  | .fill, some files =>
    let files :=
      if files.contains (stagingName w.key w.tag) then
        files.insert (stagingName w.key w.tag) w.text
      else files
    ({ w with phase := .link }, some files)
  | .link, none => ({ w with phase := .remove (.error (.io .notFound)) }, none)
  | .link, some files =>
    let (linked, files) := link w files
    ({ w with phase := .remove linked }, some files)
  | .remove linked, dir =>
    ({ w with phase := .done linked }, dir.map (·.erase (stagingName w.key w.tag)))
  | .done result, dir => ({ w with phase := .done result }, dir)

/-- A number of steps of a write, with nobody else acting between them. -/
def Write.steps (w : Write) (dir : Directory) : Nat → Write × Directory
  | 0 => (w, dir)
  | n + 1 =>
    let (w, dir) := w.step dir
    w.steps dir n

/-- The result of a write that has ended. -/
def Write.result? (w : Write) : Option (Except Error Unit) :=
  match w.phase with
  | .done result => some result
  | _ => none

/-- A whole write. It ends within four steps. -/
def put (tag : Uuid) (dir : Directory) (key : String) (value : Json) :
    Except Error Unit × Directory :=
  if isKey key then
    let (w, dir) := (Write.mk key tag value.sorted.compact .create).steps dir 4
    (w.result?.getD (.ok ()), dir)
  else (.error (.invalidDecisionKey key), dir)

def get (dir : Directory) (key : String) : Except Error Json :=
  if isKey key then
    match dir.bind (·.get? (entryName key)) with
    | none => .error (.decisionNotFound key)
    | some text =>
      match Json.parse? text with
      | some value => .ok value
      | none => .error (.serialization "the entry is no JSON value")
  else .error (.invalidDecisionKey key)

/-- Removes a directory with all that is in it. -/
def remove : Directory → Except IoFault Unit × Directory
  | some _ => (.ok (), none)
  | none => (.error .notFound, none)

/-- Removes a directory, whether or not there is one. -/
def teardown (dir : Directory) : Except Error Unit × Directory :=
  match dir.remove with
  | (.ok (), dir) => (.ok (), dir)
  | (.error .notFound, dir) => (.ok (), dir)
  | (.error fault, dir) => (.error (.io fault), dir)

/-- No directory is left, and nothing goes wrong. -/
theorem teardown_eq (dir : Directory) : dir.teardown = (.ok (), none) := by
  cases dir <;> rfl

end Directory

def Store.directory : Store Directory where
  put := Directory.put (Uuid.ofNat 0)
  get := Directory.get

/-- The directories of all runs, by name. -/
structure Root where
  directories : Table Files := ∅

namespace Root

def directory (root : Root) (run : RunId) : Directory := root.directories.get? run.text

/-- Puts a directory in the place of the directory of a run. -/
def setDirectory (root : Root) (run : RunId) : Directory → Root
  | some files => ⟨root.directories.insert run.text files⟩
  | none => ⟨root.directories.erase run.text⟩

/-- Opens the directory of a run, creating it if needed. -/
def openRun (root : Root) (run : RunId) : Root :=
  root.setDirectory run (some ((root.directory run).getD ∅))

/-- Removes the directory of a run. -/
def teardown (root : Root) (run : RunId) : Except Error Unit × Root :=
  let (result, dir) := (root.directory run).teardown
  (result, root.setDirectory run dir)

/-- Writes the file of a key from outside. -/
def overwrite (root : Root) (run : RunId) (key text : String) : Root :=
  root.setDirectory run
    ((root.directory run).map (·.insert (Directory.entryName key) text))

def text? (root : Root) (run : RunId) (key : String) : Option String :=
  (root.directory run).bind (·.get? (Directory.entryName key))

/-- The names of the files of a run, in order. -/
def fileNames (root : Root) (run : RunId) : List String :=
  ((root.directory run).getD ∅).keys.mergeSort fun a b => decide (a ≤ b)

end Root

/-- The store of a run among the directories of all runs. -/
def Store.run (run : RunId) : Store Root where
  put root key value :=
    let (result, dir) := Store.directory.put (root.directory run) key value
    (result, root.setDirectory run dir)
  get root key := Store.directory.get (root.directory run) key

end ChangeGate
