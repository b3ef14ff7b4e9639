import ChangeGate.Form.Config
import ChangeGate.Task.Context
import ChangeGate.FileTree

/-!
Where the configuration of a user lies, and where decisions are kept if it does not say so.
-/

namespace ChangeGate.CommandLine

/-- The directory of an absolute path in a variable, else one below the directory of the user. -/
def directoryFor? (environment : Table String) (name fallback : String) : Option String :=
  match (environment.get? name).filter (·.startsWith "/") with
  | some path => some path
  | none => ((environment.get? "HOME").filter (!·.isEmpty)).map (joinPath · fallback)

def configPath? (environment : Table String) : Option String :=
  (directoryFor? environment "XDG_CONFIG_HOME" ".config").map
    fun path => joinPath path "tollgate/config.yaml"

/-- The directory of the file of the configuration. -/
def configDirectory? (environment : Table String) : Option String :=
  (directoryFor? environment "XDG_CONFIG_HOME" ".config").map (joinPath · "tollgate")

/-- The directory where decisions are kept. -/
def storeDirectory (environment : Table String) (c : Config) : String :=
  let usual := (directoryFor? environment "XDG_DATA_HOME" ".local/share").map
    fun path => joinPath path "tollgate/runs"
  let passing := joinPath ((environment.get? "TMPDIR").getD "/tmp") "tollgate-runs"
  c.storeDir.getD (usual.getD passing)

/-- The configuration in a file, if there is one and it can be read; else the usual one. -/
def loadConfig (files : FileTree) (directory : String) (environment : Table String) : Config :=
  match configPath? environment with
  | none => {}
  | some path =>
    match files.readText directory path with
    | .error _ => {}
    | .ok text => (Config.ofText text).toOption.getD {}

end ChangeGate.CommandLine
