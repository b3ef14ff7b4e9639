import ChangeGate.Config
import ChangeGate.Yaml.Printer
import ChangeGate.Yaml.Reader

/-!
The YAML form of a user's configuration. Every setting may be absent; all are written.
-/

namespace ChangeGate

open Yaml (Reader)

/-- A configuration as far as it is read. -/
structure Config.Parts where
  workspace : Option (Option String) := none
  storeDir : Option (Option String) := none
  maxParallel : Option (Option Nat) := none
  outputFormat : Option OutputFormat := none

def Config.reader : Reader Config :=
  Reader.record "struct CliConfig"
    [.of "workspace" Parts.workspace (fun outer => .option outer (.string "path string"))
       fun a p => { p with workspace := some a },
     .of "store_dir" Parts.storeDir (fun outer => .option outer (.string "path string"))
       fun a p => { p with storeDir := some a },
     .of "max_parallel" Parts.maxParallel (fun outer => .option outer .size)
       fun a p => { p with maxParallel := some a },
     .of "output_format" Parts.outputFormat (Reader.enumeration OutputFormat.known)
       fun a p => { p with outputFormat := some a }]
    {}
    (fun p => .ok
      { workspace := p.workspace.getD none
        storeDir := p.storeDir.getD none
        maxParallel := p.maxParallel.getD none
        outputFormat := p.outputFormat.getD .table })

def Config.ofText (text : String) : Except Yaml.TextError Config := Yaml.read Config.reader text

def Config.toYaml (c : Config) : String :=
  let atom {α : Type} (f : α → Yaml.Atom) (a : Option α) : Yaml.Atom := (a.map f).getD .null
  Yaml.writeMapping
    [("workspace", atom .text c.workspace), ("store_dir", atom .text c.storeDir),
      ("max_parallel", atom .number c.maxParallel), ("output_format", .text c.outputFormat.name)]

end ChangeGate
