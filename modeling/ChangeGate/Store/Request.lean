import ChangeGate.Store.Directory

/-!
Requests to stores and their answers, so that a history of a store is a list of requests.
-/

namespace ChangeGate

inductive Store.Request where
  | put (key : String) (value : Json)
  | putFlag (key : String) (value : Bool)
  | get (key : String)
  | getFlag (key : String)
  | check (key : String)
deriving Repr

inductive Store.Reply where
  | written
  | value (value : Json)
  | flag (value : Bool)
  | verdict (verdict : Verdict)
deriving Repr

/-- The answer of a store to a request, and the store afterwards. -/
def Store.serve {σ : Type} (store : Store σ) (s : σ) : Request → Except Error Reply × σ
  | .put key value =>
    let (result, s) := store.put s key value
    (result.map fun _ => .written, s)
  | .putFlag key value =>
    let (result, s) := store.putFlag s key value
    (result.map fun _ => .written, s)
  | .get key => ((store.get s key).map .value, s)
  | .getFlag key => ((store.getFlag s key).map .flag, s)
  | .check key => ((store.check s key).map .verdict, s)

/-- The answers of a store to a list of requests, and the store afterwards. -/
def Store.serveAll {σ : Type} (store : Store σ) (s : σ) :
    List Request → List (Except Error Reply) × σ
  | [] => ([], s)
  | request :: rest =>
    let (answer, s) := store.serve s request
    let (answers, s) := store.serveAll s rest
    (answer :: answers, s)

/-- What can be done to the directory of a run. -/
inductive Root.Request where
  | openRun
  | store (request : Store.Request)
  | overwrite (key text : String)
  | teardown
deriving Repr

/-- The answer to a request to the directory of a run, and all directories afterwards. -/
def Root.serve (root : Root) (run : RunId) : Request → Except Error Store.Reply × Root
  | .openRun => (.ok .written, root.openRun run)
  | .store request => (Store.run run).serve root request
  | .overwrite key text => (.ok .written, root.overwrite run key text)
  | .teardown =>
    let (result, root) := root.teardown run
    (result.map fun _ => .written, root)

/-- The answers to requests to the directories of several runs, and all directories afterwards. -/
def Root.serveAll (root : Root) :
    List (RunId × Request) → List (Except Error Store.Reply) × Root
  | [] => ([], root)
  | (run, request) :: rest =>
    let (answer, root) := root.serve run request
    let (answers, root) := root.serveAll rest
    (answer :: answers, root)

end ChangeGate
