import ChangeGate.Error
import ChangeGate.Revision
import ChangeGate.Text.Lines
import ChangeGate.Text.Utf8

/-!
Changed paths from a checkout. The command `git` is started up to three times: to resolve the older
revision, to resolve the newer one, and to list the paths that differ. What it does is given by a
function of the calls made so far.
-/

namespace ChangeGate

/-- How a process came to its end: by itself, with a code, or by a signal, for which the system has
its own words. -/
inductive Git.Status where
  | exited (code : Nat)
  | killed (signal : String)
deriving DecidableEq, Repr

namespace Git.Status

instance (code : Nat) : OfNat Status code := ⟨.exited code⟩

instance : Coe Nat Status := ⟨.exited⟩

def text : Status → String
  | .exited code => "exit status: " ++ toString code
  | .killed signal => "signal: " ++ signal

end Git.Status

/-- How a call of `git` ended. -/
structure Git.Reply where
  status : Git.Status := 0
  stdout : List UInt8 := []
  stderr : List UInt8 := []
deriving Repr

/-- What `git` does: for the calls made before and the arguments of the next one, how that call
ends, or why it cannot be started. -/
abbrev Git := List (List String) → List String → Except IoFault Git.Reply

namespace Git

/-- What is going on: the calls made so far, the latest first, and a value or an error. -/
structure Trace (α : Type) where
  calls : List (List String)
  result : Except Error α

def Trace.andThen {α β : Type} (t : Trace α) (f : List (List String) → α → Trace β) : Trace β :=
  match t.result with
  | .ok a => f t.calls a
  | .error e => ⟨t.calls, .error e⟩

/-- Calls `git` in a checkout. An argument that holds a null character cannot be passed on. -/
def call (git : Git) (repo : String) (calls : List (List String)) (arguments : List String) :
    Trace Reply :=
  let arguments := "-C" :: repo :: arguments
  let failure (fault : IoFault) : Error := .diff ("failed to run git: " ++ fault.message)
  if arguments.any (·.toList.contains '\x00') then
    ⟨calls, .error (failure (.other "nul byte found in provided data"))⟩
  else match git calls.reverse arguments with
    | .error fault => ⟨calls, .error (failure fault)⟩
    | .ok reply => ⟨arguments :: calls, .ok reply⟩

def trimmed (bytes : List UInt8) : String :=
  String.ofList (Text.trim (Text.Utf8.lenient bytes))

/-- Resolves a revision to the identifier of a commit. -/
def resolve (git : Git) (repo : String) (calls : List (List String)) (revision : String) :
    Trace String :=
  if Revisions.isNull revision then
    ⟨calls, .error (.revisionResolution revision "no parent revision")⟩
  else
    (call git repo calls
      ["rev-parse", "--verify", "--quiet", revision ++ "^\x7bcommit\x7d"]).andThen
      fun calls reply =>
        if reply.status = 0 then ⟨calls, .ok (trimmed reply.stdout)⟩
        else ⟨calls, .error (.revisionResolution revision "unknown revision")⟩

/-- The paths that `git` lists, each followed by a null character. -/
def listedPaths (bytes : List UInt8) : List String :=
  ((Text.pieces '\x00' (Text.Utf8.lenient bytes)).filter (!·.isEmpty)).map String.ofList

/-- The changed paths between two commits. -/
def difference (git : Git) (repo : String) (calls : List (List String)) (base head : String) :
    Trace (List String) :=
  (call git repo calls ["diff", "--name-only", "-z", "--no-renames", base, head]).andThen
    fun calls reply =>
      if reply.status = 0 then ⟨calls, .ok (listedPaths reply.stdout)⟩
      else ⟨calls, .error (.diff ("git diff exited with " ++ reply.status.text ++ ": " ++
        trimmed reply.stderr))⟩

/-- The changed paths between two revisions, and the calls made. -/
def changedPaths (git : Git) (repo : String) (revisions : Revisions) : Trace (List String) :=
  (resolve git repo [] revisions.base).andThen fun calls base =>
    (resolve git repo calls revisions.head).andThen fun calls head =>
      difference git repo calls base head

end Git

end ChangeGate
