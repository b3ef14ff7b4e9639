import ChangeGate.CommandLine.Perform
import ChangeGate.Proofs.Config
import ChangeGate.Proofs.Except
import ChangeGate.Proofs.FileTree

/-! Setting values from the command line. The configuration is read from its file, changed, and
written back as a whole. A file that is not there, or that holds no configuration, counts as the
usual configuration, for this command as for all others; so setting a value keeps the settings of a
file only if that can be read. -/

namespace ChangeGate

/-- A configuration that is read back as it was written. -/
def Config.Kept (c : Config) : Prop := Config.ofText c.toYaml = .ok c

/-- The file of the configuration lies in its directory. -/
theorem CommandLine.configPath_of_directory {environment : Table String} {directory path : String}
    (hDirectory : configDirectory? environment = some directory)
    (hPath : configPath? environment = some path) :
    directory.isEmpty = false ∧ path = directory ++ "/" ++ "config.yaml" := by
  obtain ⟨base, hBase, rfl⟩ := Option.map_eq_some_iff.mp hDirectory
  rw [configPath?, hBase, Option.map_some, Option.some.injEq] at hPath
  subst hPath
  have hFull : "tollgate/config.yaml" = "tollgate" ++ "/" ++ "config.yaml" := by decide
  have hRelative : "tollgate/config.yaml".startsWith "/" = false ∧
      "tollgate".startsWith "/" = false := by
    decide +kernel
  simp only [joinPath, hRelative, Bool.false_eq_true, if_false, hFull]
  split <;> simp [String.append_assoc]

namespace CommandLine.Place

variable {p q : Place} {key value : String} {c : Config} {a : Answer} {files : FileTree}

/-- The place as it is with other files. -/
def withFiles (p : Place) (files : FileTree) : Place :=
  { p with machine := { p.machine with files } }

/-- What the configuration of a place is: that of the file if it has one, else the usual one. -/
inductive Loads (p : Place) : Config → Prop where
  | file {path text : String} {c : Config} (hPath : configPath? p.machine.environment = some path)
      (hText : p.machine.files.readText p.machine.directory path = .ok text)
      (hConfig : Config.ofText text = .ok c) : Loads p c
  | malformed {path text : String} {e : Yaml.TextError}
      (hPath : configPath? p.machine.environment = some path)
      (hText : p.machine.files.readText p.machine.directory path = .ok text)
      (hConfig : Config.ofText text = .error e) : Loads p {}
  | unreadable {path : String} {fault : IoFault}
      (hPath : configPath? p.machine.environment = some path)
      (hText : p.machine.files.readText p.machine.directory path = .error fault) : Loads p {}
  | nowhere (hPath : configPath? p.machine.environment = none) : Loads p {}

theorem loads_iff : p.Loads c ↔ p.config = c := by
  constructor
  · rintro (⟨hPath, hText, hConfig⟩ | ⟨hPath, hText, hConfig⟩ | ⟨hPath, hText⟩ | hPath)
    · simp [config, loadConfig, hPath, hText, hConfig, Except.toOption]
    · simp [config, loadConfig, hPath, hText, hConfig, Except.toOption]
    · simp [config, loadConfig, hPath, hText]
    · simp [config, loadConfig, hPath]
  · rintro rfl
    cases hPath : configPath? p.machine.environment with
    | none => simpa [config, loadConfig, hPath] using Loads.nowhere hPath
    | some path =>
        cases hText : p.machine.files.readText p.machine.directory path with
        | error fault => simpa [config, loadConfig, hPath, hText] using Loads.unreadable hPath hText
        | ok text =>
            cases hConfig : Config.ofText text with
            | error e =>
                simpa [config, loadConfig, hPath, hText, hConfig, Except.toOption] using
                  Loads.malformed hPath hText hConfig
            | ok c =>
                simpa [config, loadConfig, hPath, hText, hConfig, Except.toOption] using
                  Loads.file hPath hText hConfig

/-- Without its file, a place has the usual configuration. -/
theorem config_of_absent (hAbsent : ∀ path, configPath? p.machine.environment = some path →
    p.machine.files.exists? p.machine.directory path = false) : p.config = {} := by
  cases hPath : configPath? p.machine.environment with
  | none => exact loads_iff.mp (.nowhere hPath)
  | some path =>
      obtain ⟨fault, hText⟩ := FileTree.readText_of_absent (hAbsent path hPath)
      exact loads_iff.mp (.unreadable hPath hText)

/-- A configuration that has been saved is in its file. -/
theorem readText_of_save (h : p.saveConfig c = (.ok (), files)) :
    ∃ path, configPath? p.machine.environment = some path ∧
      files.readText p.machine.directory path = .ok c.toYaml := by
  unfold saveConfig at h
  dsimp only at h
  split at h
  · next directory path hDirectory hPath =>
      split at h
      · cases h
      · split at h
        · cases h
        · next hWrite =>
            cases h
            exact ⟨path, hPath, FileTree.readText_of_read (FileTree.read_of_write hWrite)⟩
  · cases h

theorem config_of_save (h : p.saveConfig c = (.ok (), files)) (kept : c.Kept) :
    (p.withFiles files).config = c := by
  obtain ⟨path, hPath, hText⟩ := readText_of_save h
  exact loads_iff.mp (.file (p := p.withFiles files) hPath hText kept)

/-- A configuration that cannot be saved leaves all files as they are: a directory that has been
made for it would take its file. -/
theorem files_of_save_error {failure : Failure} (h : p.saveConfig c = (.error failure, files)) :
    files = p.machine.files := by
  unfold saveConfig at h
  dsimp only at h
  split at h
  · next directory path hDirectory hPath =>
      obtain ⟨hSome, rfl⟩ := configPath_of_directory hDirectory hPath
      have hFree : '/' ∉ "config.yaml".toList := by decide
      split at h
      · cases h
        rfl
      · next made hMade =>
          split at h
          · next fault hWrite =>
              cases h
              exact FileTree.eq_of_write_error
                (FileTree.names_below _ hSome hFree (by decide) (by decide) (by decide)) hSome
                (by simp) (FileTree.endsWith_slash_append hFree (by decide) _) hMade hWrite
          · cases h
  · cases h
    rfl

theorem setConfig_of_rejects {fault : Config.Fault} (rejects : Config.Rejects key value fault)
    (p : Place) : p.setConfig key value = p.fail (.words fault.message) := by
  rw [setConfig, Config.set_eq_error_iff.mpr rejects]

/-- A value that is taken for its key is saved. -/
theorem setConfig_of_saved (replaces : Config.Replaces p.config key value c)
    (hSave : p.saveConfig c = (.ok (), files)) :
    p.setConfig key value = { p.say ["✓ Set " ++ key ++ " = " ++ value] with files } := by
  simp only [setConfig, Config.set_eq_ok_iff.mpr replaces, hSave]

theorem setConfig_of_not_saved {failure : Failure}
    (replaces : Config.Replaces p.config key value c)
    (hSave : p.saveConfig c = (.error failure, files)) :
    p.setConfig key value = p.fail failure := by
  simp only [setConfig, Config.set_eq_ok_iff.mpr replaces, hSave, files_of_save_error hSave, fail]

/-- What the answer to a command that sets a value is to be. -/
structure ChangesOne (p : Place) (key value : String) (a : Answer) : Prop where
  /-- The command succeeds if the value is taken for the key and the file can be written. -/
  done_iff : a.failure = none ↔
    ∃ c files, Config.Replaces p.config key value c ∧ p.saveConfig c = (.ok (), files)
  /-- Then the configuration has the value for the key, and is the same otherwise. -/
  changed : a.failure = none →
    ∃ c, Config.Replaces p.config key value c ∧ (c.Kept → (p.withFiles a.files).Loads c)
  /-- A command that fails leaves all files as they are. -/
  unchanged : a.failure ≠ none → a.files = p.machine.files
  rejected : ∀ fault, Config.Rejects key value fault → a.failure = some (.words fault.message)

theorem changesOne (p : Place) (key value : String) (verbose : Bool) :
    ChangesOne p key value (p.perform ⟨.setConfig key value, verbose⟩) := by
  change ChangesOne p key value (p.setConfig key value)
  cases hConfig : p.config.set key value with
  | error fault =>
      have rejects := Config.set_eq_error_iff.mp hConfig
      rw [setConfig_of_rejects rejects]
      refine ⟨iff_of_false nofun ?_, nofun, fun _ => rfl, fun fault' other => ?_⟩
      · rintro ⟨c, files, replaces, -⟩
        exact replaces.not_rejects rejects
      · rw [rejects.unique other]
        rfl
  | ok c =>
      have replaces := Config.set_eq_ok_iff.mp hConfig
      rcases hSave : p.saveConfig c with ⟨failure | saved, files⟩
      · rw [setConfig_of_not_saved replaces hSave]
        refine ⟨iff_of_false nofun ?_, nofun, fun _ => rfl,
          fun fault rejects => absurd rejects replaces.not_rejects⟩
        rintro ⟨c', files', other, hSave'⟩
        rw [← replaces.unique other, hSave] at hSave'
        cases hSave'
      · cases saved
        rw [setConfig_of_saved replaces hSave]
        exact ⟨iff_of_true rfl ⟨c, files, replaces, hSave⟩,
          fun _ => ⟨c, replaces, fun kept => loads_iff.mpr (config_of_save hSave kept)⟩,
          fun h => absurd rfl h, fun fault rejects => absurd rejects replaces.not_rejects⟩

/-- Where commands that set values lead from a place, and the values that were set: those of the
commands that have not failed, in order. -/
inductive Sets (p : Place) : List (String × String) → Place → Prop where
  | start : Sets p [] p
  | set {sets : List (String × String)} {q : Place} (prior : Sets p sets q) (key value : String)
      (verbose : Bool) (hDone : (q.perform ⟨.setConfig key value, verbose⟩).failure = none) :
      Sets p (sets ++ [(key, value)])
        (q.withFiles (q.perform ⟨.setConfig key value, verbose⟩).files)
  | failed {sets : List (String × String)} {q : Place} (prior : Sets p sets q) (key value : String)
      (verbose : Bool) (hFailed : (q.perform ⟨.setConfig key value, verbose⟩).failure ≠ none) :
      Sets p sets (q.withFiles (q.perform ⟨.setConfig key value, verbose⟩).files)

/-- Where the usual configuration counts at the start, the last values that were set are those of
the configuration, if every configuration on the way is read back as it was written. -/
theorem Sets.config_eq {sets : List (String × String)} (run : Sets p sets q)
    (hStart : p.config = {}) (hKept : ∀ before, before <+: sets → (Config.ofSets before).Kept) :
    q.config = Config.ofSets sets := by
  induction run with
  | start => exact hStart
  | @failed sets q prior key value verbose hFailed ih =>
      rw [(q.changesOne key value verbose).unchanged hFailed]
      exact ih hKept
  | @set sets q prior key value verbose hDone ih =>
      have hPrior : q.config = Config.ofSets sets :=
        ih fun before hBefore => hKept before (hBefore.trans (List.prefix_append ..))
      obtain ⟨c, replaces, hLoads⟩ := (q.changesOne key value verbose).changed hDone
      rw [hPrior] at replaces
      obtain rfl := replaces.eq_ofSets
      exact loads_iff.mp (hLoads (hKept _ List.prefix_rfl))

/-- Setting a value changes one setting or nothing, where the configuration of a place is that of
its file, and the usual one if the file is not there or holds no configuration. So after any
commands from a place without the file, whether they fail or not, the configuration has the last
value that was set for each key. Configurations are taken to be read back as they are written. -/
theorem set_changes_one_setting (p : Place) :
    p.Loads p.config ∧
    (∀ key value verbose,
      ChangesOne p key value (p.perform ⟨.setConfig key value, verbose⟩)) ∧
    ((∀ path, configPath? p.machine.environment = some path →
        p.machine.files.exists? p.machine.directory path = false) →
      ∀ sets q, p.Sets sets q → (∀ before, before <+: sets → (Config.ofSets before).Kept) →
        q.Loads (Config.ofSets sets)) :=
  ⟨loads_iff.mpr rfl, p.changesOne, fun hAbsent _ _ run hKept =>
    loads_iff.mpr (run.config_eq (config_of_absent hAbsent) hKept)⟩

/-- A place of a user who has a directory, with files besides. -/
def homePlace (files : List (String × FileTree.Entry)) : Place where
  machine :=
    { files := ⟨Table.ofList (("/home", .directory) :: files)⟩
      directory := "/home"
      environment := Table.ofList [("HOME", "/home")] }
  git := fun _ _ => .error .notFound
  newId := .ofNat
  moment := fun _ => ⟨⟨⟨2024, 5, 1⟩, 36000, 0⟩, 0, false⟩

/-- Two values that are set one after the other are both in the configuration. -/
theorem sample_settings_kept :
    ∃ q, (homePlace []).Sets [("store_dir", "st"), ("max_parallel", "4")] q ∧
      q.Loads { storeDir := some "st", maxParallel := some 4 } := by
  have hPath : configPath? (homePlace []).machine.environment =
      some "/home/.config/tollgate/config.yaml" := by decide +kernel
  have hAbsent : ∀ path, configPath? (homePlace []).machine.environment = some path →
      (homePlace []).machine.files.exists? (homePlace []).machine.directory path = false := by
    intro path h
    obtain rfl := Option.some.inj (hPath.symm.trans h)
    decide +kernel
  have first : (homePlace []).Sets [("store_dir", "st")] _ :=
    Sets.start.set "store_dir" "st" false (by decide +kernel)
  have second := first.set "max_parallel" "4" false (by decide +kernel)
  obtain ⟨-, -, hLoads⟩ := set_changes_one_setting (homePlace [])
  refine ⟨_, second, hLoads hAbsent _ _ second fun before hBefore => ?_⟩
  rcases List.prefix_concat_iff.mp hBefore with rfl | hBefore
  · exact ok_of_toOption (by decide +kernel)
  · rcases List.prefix_cons_iff.mp hBefore with rfl | ⟨rest, rfl, hRest⟩
    · exact ok_of_toOption (by decide +kernel)
    · rw [List.prefix_nil.mp hRest]
      exact ok_of_toOption (by decide +kernel)

/-- The text of a configuration with a number that cannot be read. -/
def malformedText : String := "store_dir: st\nmax_parallel: many\n"

/-- A place with that text in the file of the configuration. -/
def malformedPlace : Place :=
  homePlace
    [("/home/.config", .directory), ("/home/.config/tollgate", .directory),
      ("/home/.config/tollgate/config.yaml", .file (Text.Utf8.encode malformedText.toList))]

/-- The file of the place holds no configuration, and yet setting a value succeeds: the file is
replaced, and the setting that it had is gone. -/
theorem malformed_file_replaced :
    configPath? malformedPlace.machine.environment = some "/home/.config/tollgate/config.yaml" ∧
    malformedPlace.machine.files.readText "/home" "/home/.config/tollgate/config.yaml" =
      .ok malformedText ∧
    (∃ e, Config.ofText malformedText = .error e) ∧
    (malformedPlace.perform ⟨.setConfig "max_parallel" "4", false⟩).failure = none ∧
    (malformedPlace.perform ⟨.setConfig "max_parallel" "4", false⟩).files.readText "/home"
        "/home/.config/tollgate/config.yaml" =
      .ok "workspace: null\nstore_dir: null\nmax_parallel: 4\noutput_format: table\n" := by
  have hText : (Config.ofText malformedText).toOption = none := by decide +kernel
  refine ⟨by decide +kernel, ok_of_toOption (by decide +kernel), ?_, by decide +kernel,
    ok_of_toOption (by decide +kernel)⟩
  cases hConfig : Config.ofText malformedText with
  | error e => exact ⟨e, rfl⟩
  | ok c => rw [hConfig] at hText; cases hText

end CommandLine.Place

end ChangeGate
