import ChangeGate.Bits
import ChangeGate.CommandLine.Perform
import Std.Time.DateTime.Timestamp

/-!
The program: it loads the files that a command can see, carries the command out, writes back what
has changed, and prints the answer. Commands of tasks are carried out by the library itself; other
programs are not started, so there is no `git`.
-/

namespace ChangeGate.Main

open CommandLine

/-- The greatest depth to which directories are loaded. -/
def maxDepth : Nat := 24

/-- Loads what a path leads to, with all below it. -/
def load (tree : FileTree) (path : String) : Nat → IO FileTree
  | 0 => return tree
  | depth + 1 => do
    let place := (← IO.currentDir) / path
    if ← place.isDir then
      let tree := (tree.makeDirectories "/" path).toOption.getD tree
      let entries ← place.readDir
      entries.toList.foldlM (fun tree e => load tree (joinPath path e.fileName) depth) tree
    else if ← place.pathExists then
      let content ← IO.FS.readBinFile place
      let parent := FileTree.absolute (FileTree.names "/" path).dropLast
      let tree := (tree.makeDirectories "/" parent).toOption.getD tree
      return (tree.write "/" path content.toList).toOption.getD tree
    else return tree

def writeBack (before after : FileTree) : IO Unit := do
  let (made, removed) := before.changes after
  for (path, entry) in made do
    match entry with
    | .directory => IO.FS.createDirAll path
    | .file content => IO.FS.writeBinFile path ⟨content.toArray⟩
  for path in removed.reverse do
    let place := (← IO.currentDir) / path
    if ← place.isDir then IO.FS.removeDirAll place
    else if ← place.pathExists then IO.FS.removeFile place

/-- The variables that matter to commands. -/
def vars : List String :=
  ["HOME", "PATH", "XDG_CONFIG_HOME", "XDG_DATA_HOME", "TMPDIR", "USER", "LANG", "TERM", "SHELL"]

def environment : IO (Table String) :=
  vars.foldlM (fun t name => do
    match ← IO.getEnv name with
    | some value => return t.insert name value
    | none => return t) ∅

/-- A number of 128 bits that nobody else has. -/
def freshNumber : IO Nat := do
  let bytes ← IO.getRandomBytes 16
  return bytes.toList.foldl (fun n b => n * 256 + b.toNat) 0

def place (i : Invocation) : IO Place := do
  let directory := (← IO.currentDir).toString
  let environment ← environment
  let config := (configDirectory? environment).toList
  let named := i.command.paths.map fun path => FileTree.absolute (FileTree.names directory path)
  let files ← (directory :: config ++ named).foldlM (fun t path => load t path maxDepth) {}
  let now ← Std.Time.Timestamp.now
  let number ← freshNumber
  let input ← if i.command.paths.contains "-" then (← IO.getStdin).readBinToEnd else pure ⟨#[]⟩
  return {
    machine := ⟨files, directory, environment⟩
    input := input.toList
    git := fun _ _ => .error .notFound
    newId := fun n => Uuid.ofNat ((number + n) % Bits.values 128)
    moment := fun _ =>
      ⟨Timestamp.ofNanoseconds now.toNanosecondsSinceUnixEpoch.val.toNat, 0, true⟩ }

end ChangeGate.Main

/-- Carries out the command that the arguments stand for. -/
def main (arguments : List String) : IO UInt32 := do
  match ChangeGate.CommandLine.Invocation.ofArguments arguments with
  | .error fault =>
    IO.eprintln ("error: " ++ fault.message)
    return 2
  | .ok invocation =>
    let place ← ChangeGate.Main.place invocation
    let answer := place.perform invocation
    ChangeGate.Main.writeBack place.machine.files answer.files
    IO.print answer.output
    match answer.failure with
    | some failure => IO.eprintln failure.line
    | none => pure ()
    return UInt32.ofNat answer.status
