import ChangeGate.Proofs.Interpolation
import ChangeGate.Proofs.Table
import ChangeGate.Task.Context

/-!
What a task is told, in its environment and through the expressions of its command. Both take the
variables of the task before those of the workflow; over them the environment has the axes and the
names of run and job, which expressions do not see. Under every other name both give the same value.
-/

namespace ChangeGate.TaskContext

variable {c : TaskContext} {name : String}

/-- What the environment says of the run and the job. -/
def identity (c : TaskContext) : List (String × String) :=
  [("TOLLGATE_RUN_ID", c.run.text), ("TOLLGATE_JOB_ID", c.job.text), ("TOLLGATE_JOB_NAME", c.name)]

/-- The parameters in order, under the names of their variables. -/
def axes (c : TaskContext) : List (String × String) :=
  c.parameters.entries.map fun e => (axisVariable e.1, e.2)

theorem map_fst_axes (c : TaskContext) :
    c.axes.map Prod.fst = c.parameters.keys.map axisVariable := by
  simp [axes, Table.keys, Function.comp_def]

/-- The variables that expressions may name. -/
theorem get?_vars (c : TaskContext) (name : String) :
    (c.vars.insertAll c.task.vars.entries).get? name =
      (c.task.vars.get? name).or (c.vars.get? name) :=
  Table.get?_insertAll_entries _ _ _

theorem environment_eq (c : TaskContext) :
    c.environment =
      ((c.vars.insertAll c.task.vars.entries).insertAll c.axes).insertAll c.identity :=
  rfl

theorem get?_environment (c : TaskContext) (name : String) :
    c.environment.get? name =
      (c.identity.lookup name).or ((c.axes.reverse.lookup name).or
        ((c.task.vars.get? name).or (c.vars.get? name))) := by
  have hNodup : (c.identity.map Prod.fst).Nodup := by simp [identity]
  rw [environment_eq, Table.get?_insertAll, Table.get?_insertAll, get?_vars,
    Table.lookup_reverse hNodup]

theorem mem_keys_environment (c : TaskContext) (name : String) :
    name ∈ c.environment.keys ↔
      name ∈ c.identity.map Prod.fst ∨ name ∈ c.parameters.keys.map axisVariable ∨
        name ∈ c.task.vars.keys ∨ name ∈ c.vars.keys := by
  rw [environment_eq, Table.mem_keys_insertAll, Table.mem_keys_insertAll, map_fst_axes,
    Table.mem_keys_insertAll, ← Table.keys]

/-- A name that an expression may have as it stands, and that the environment keeps neither for the
run and the job nor for an axis. -/
structure Plain (c : TaskContext) (name : String) : Prop where
  no_brace : '\x7d' ∉ name.toList
  first : ∀ ch, name.toList.head? = some ch → Text.isBlank ch = false
  last : ∀ ch, name.toList.getLast? = some ch → Text.isBlank ch = false
  not_env : ¬ "env.".toList <+: name.toList
  not_matrix : ¬ "matrix.".toList <+: name.toList
  not_identity : name ∉ ["TOLLGATE_RUN_ID", "TOLLGATE_JOB_ID", "TOLLGATE_JOB_NAME"]
  not_axis : ∀ axis ∈ c.parameters.keys, axisVariable axis ≠ name

namespace Plain

variable (hPlain : c.Plain name)
include hPlain

theorem trim_eq : Text.trim name.toList = name.toList :=
  Text.trim_eq_self hPlain.first hPlain.last

/-- Under a plain name the environment has what expressions see. -/
theorem get?_environment_eq :
    c.environment.get? name = (c.vars.insertAll c.task.vars.entries).get? name := by
  have hIdentity : c.identity.lookup name = none := by
    have hNot := hPlain.not_identity
    simp only [List.mem_cons, List.not_mem_nil, or_false, not_or] at hNot
    simp [identity, List.lookup_eq_none_iff, hNot]
  have hAxes : c.axes.reverse.lookup name = none := by
    refine List.lookup_eq_none_iff.mpr fun entry hMem => bne_iff_ne.mpr fun hName => ?_
    have hAxis : entry.1 ∈ c.axes.map Prod.fst := List.mem_map_of_mem (List.mem_reverse.mp hMem)
    obtain ⟨axis, hKey, hVariable⟩ := List.mem_map.mp (map_fst_axes c ▸ hAxis)
    exact hPlain.not_axis axis hKey (hVariable.trans hName.symm)
  rw [get?_environment, get?_vars, hIdentity, hAxes, Option.none_or, Option.none_or]

theorem command_of_name (hRun : c.task.run = "$\x7b\x7b " ++ name ++ " \x7d\x7d")
    (process : String → Option String) :
    c.command process = (c.environment.get? name).getD "" := by
  have hText : c.task.run.toList =
      Interpolation.opening ++ (' ' :: name.toList ++ [' ']) ++ Interpolation.closing := by
    simp [hRun, Interpolation.opening, Interpolation.closing]
  rw [command, Interpolation.interpolate_expression _ hText hPlain.no_brace hPlain.trim_eq,
    Interpolation.Scope.value_of_plain _ hPlain.not_env hPlain.not_matrix, String.ofList_toList,
    hPlain.get?_environment_eq]

theorem command_of_env_name (hRun : c.task.run = "$\x7b\x7b env." ++ name ++ " \x7d\x7d")
    (process : String → Option String) {value : String}
    (hValue : c.environment.get? name = some value) : c.command process = value := by
  have hText : c.task.run.toList = Interpolation.opening ++
      (' ' :: ("env.".toList ++ name.toList) ++ [' ']) ++ Interpolation.closing := by
    simp [hRun, Interpolation.opening, Interpolation.closing]
  have hTrim : Text.trim ("env.".toList ++ name.toList) = "env.".toList ++ name.toList :=
    Text.trim_append_eq_self (by decide) (by decide) hPlain.last
  rw [command, Interpolation.interpolate_expression _ hText (by simpa using hPlain.no_brace) hTrim,
    Interpolation.Scope.value_env, String.ofList_toList, ← hPlain.get?_environment_eq, hValue,
    Option.some_or, Option.getD_some]

end Plain

/-- The environment has the run and the job, the axes, the variables of the task and those of the
workflow, each before the next, and of axes with one variable the last. A command that names a
variable, with `env.` or without, becomes what the environment has under that name. -/
theorem command_agrees_with_environment (c : TaskContext) :
    (∀ name, c.environment.get? name =
      (c.identity.lookup name).or ((c.axes.reverse.lookup name).or
        ((c.task.vars.get? name).or (c.vars.get? name)))) ∧
    (∀ name, name ∈ c.environment.keys ↔
      name ∈ c.identity.map Prod.fst ∨ name ∈ c.parameters.keys.map axisVariable ∨
        name ∈ c.task.vars.keys ∨ name ∈ c.vars.keys) ∧
    ∀ name, c.Plain name → ∀ process : String → Option String,
      (c.task.run = "$\x7b\x7b " ++ name ++ " \x7d\x7d" →
        c.command process = (c.environment.get? name).getD "") ∧
      (c.task.run = "$\x7b\x7b env." ++ name ++ " \x7d\x7d" →
        ∀ value, c.environment.get? name = some value → c.command process = value) :=
  ⟨c.get?_environment, c.mem_keys_environment, fun _ hPlain process =>
    ⟨fun hRun => hPlain.command_of_name hRun process,
      fun hRun _ hValue => hPlain.command_of_env_name hRun process hValue⟩⟩

/-- A task whose variables, axes and identity overlap. -/
def overlapping (run : String) : TaskContext where
  run := ⟨Uuid.ofNat 0⟩
  job := ⟨Uuid.ofNat 1⟩
  name := "build"
  parameters := Table.ofList [("py-version", "3.10"), ("py_version", "3.11")]
  vars := Table.ofList [("TARGET", "all"), ("PY_VERSION", "2"), ("TOLLGATE_JOB_NAME", "none")]
  task := { run := run, vars := Table.ofList [("TARGET", "lint")] }
  workspace := "/work"

theorem plain_target (run : String) : (overlapping run).Plain "TARGET" where
  no_brace := by decide
  first := fun ch hFirst => by
    obtain rfl := Option.some.inj (hFirst : some 'T' = some ch)
    decide
  last := fun ch hLast => by
    obtain rfl := Option.some.inj (hLast : some 'T' = some ch)
    decide
  not_env := by decide
  not_matrix := by decide
  not_identity := by decide
  not_axis := by
    have hKeys : (overlapping run).parameters.keys = ["py-version", "py_version"] := rfl
    rw [hKeys]
    decide

theorem overlapping_agrees :
    (overlapping "$\x7b\x7b TARGET \x7d\x7d").Plain "TARGET" ∧
    (overlapping "$\x7b\x7b TARGET \x7d\x7d").environment.get? "TARGET" = some "lint" ∧
    (overlapping "$\x7b\x7b TARGET \x7d\x7d").command (fun _ => some "other") = "lint" ∧
    (overlapping "$\x7b\x7b env.TARGET \x7d\x7d").command (fun _ => some "other") = "lint" ∧
    (overlapping "").environment.get? "PY_VERSION" = some "3.11" ∧
    (overlapping "").environment.get? "TOLLGATE_JOB_NAME" = some "build" := by
  have hTarget : ∀ run, (overlapping run).environment.get? "TARGET" = some "lint" := fun run =>
    (command_agrees_with_environment (overlapping run)).1 "TARGET"
  have hAgrees := fun run =>
    (command_agrees_with_environment (overlapping run)).2.2 "TARGET" (plain_target run)
      fun _ => some "other"
  have hGiven : ∀ name, (overlapping "").environment.get? name = _ :=
    (command_agrees_with_environment (overlapping "")).1
  refine ⟨plain_target _, hTarget _, ?_, (hAgrees _).2 rfl _ (hTarget _), ?_, ?_⟩
  · have hCommand := (hAgrees "$\x7b\x7b TARGET \x7d\x7d").1 rfl
    rwa [hTarget, Option.getD_some] at hCommand
  · rw [hGiven]
    decide
  · rw [hGiven]
    decide

end ChangeGate.TaskContext
