import ChangeGate.FileTree
import ChangeGate.Store.Directory

/-!
Stores in a tree of files: the directory of a run is one of the tree.
-/

namespace ChangeGate

/-- The files that lie directly in a directory of a tree. -/
def FileTree.directory (t : FileTree) (names : Names) : Directory :=
  match t.entry? names with
  | some .directory =>
    some <| Table.ofList <| (t.list names).filterMap fun name =>
      match t.entry? (names ++ [name]) with
      | some (.file content) => some (name, String.ofList (Text.Utf8.lenient content))
      | _ => none
  | _ => none

/-- Adds files to a directory of a tree; those that are there already stay as they are. -/
def FileTree.addFiles (t : FileTree) (names : Names) (files : Files) : FileTree :=
  files.entries.foldl (fun t (name, text) =>
    let target := names ++ [name]
    if (t.entry? target).isSome then t
    else t.set target (.file (Text.Utf8.encode text.toList))) t

def Store.files (names : FileTree.Names) : Store FileTree where
  put t key value :=
    let (result, dir) := Store.directory.put (t.directory names) key value
    (result, t.addFiles names (dir.getD ∅))
  get t key := Store.directory.get (t.directory names) key

def Store.within {σ τ : Type} (store : Store σ) (part : τ → σ) (replace : σ → τ → τ) : Store τ where
  put t key value :=
    let (result, s) := store.put (part t) key value
    (result, replace s t)
  get t key := store.get (part t) key

end ChangeGate
