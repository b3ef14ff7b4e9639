import ChangeGate.Proofs.Expansion.Relisting
import ChangeGate.Proofs.Plan
import ChangeGate.Proofs.Task.Context

/-! What a task is told of the values of its job. Its command may name every axis. In its
environment an axis is under the name of its variable, unless a later axis has the same variable or
the variable is one of those that name the run and the job. -/

namespace ChangeGate

/-- A name of letters, digits, underscores and hyphens. -/
def IsAxisWord (axis : String) : Prop :=
  ∀ c ∈ axis.toList, c.isAlphanum = true ∨ c = '_' ∨ c = '-'

instance : DecidablePred IsAxisWord := fun axis =>
  decidable_of_iff (axis.toList.all fun c => c.isAlphanum || c == '_' || c == '-')
    (by simp [IsAxisWord, or_assoc])

theorem IsAxisWord.printed {axis : String} (word : IsAxisWord axis) {c : Char}
    (hMem : c ∈ axis.toList) : 0x20 < c.toNat ∧ c.toNat < 0x7B := by
  rcases word c hMem with hAlphanum | rfl | rfl
  · exact Text.printed_of_isAlphanum hAlphanum
  · decide
  · decide

/-- Nothing takes the variable of an axis from it: it is not one of those that name the run and the
job, and no later axis has it. -/
structure Shown (axes : List String) (axis : String) : Prop where
  not_identity :
    axisVariable axis ∉ ["TOLLGATE_RUN_ID", "TOLLGATE_JOB_ID", "TOLLGATE_JOB_NAME"]
  last : ∃ before after, axes = before ++ axis :: after ∧
    ∀ later ∈ after, axisVariable later ≠ axisVariable axis

namespace TaskContext

variable {c : TaskContext} {axis value : String}

/-- The environment has an axis that is shown. -/
theorem get?_environment_of_shown (shown : Shown c.parameters.keys axis)
    (hValue : c.parameters.get? axis = some value) :
    c.environment.get? (axisVariable axis) = some value := by
  obtain ⟨before, after, hKeys, hLater⟩ := shown.last
  obtain ⟨front, rest, hEntries, -, hRest⟩ := List.map_eq_append_iff.mp hKeys
  obtain ⟨entry, back, rfl, rfl, rfl⟩ := List.map_eq_cons_iff.mp hRest
  have hOwn : c.parameters.get? entry.1 = some entry.2 :=
    Table.mem_entries_iff.mp (by simp [hEntries])
  obtain rfl := Option.some.inj (hOwn.symm.trans hValue)
  have hIdentity : c.identity.lookup (axisVariable entry.1) = none := by
    have hNot := shown.not_identity
    simp only [List.mem_cons, List.not_mem_nil, or_false, not_or] at hNot
    simp [identity, List.lookup_eq_none_iff, hNot]
  -- from the end, the entries of later axes are passed over
  have hBack : (back.map fun e => (axisVariable e.1, e.2)).reverse.lookup
      (axisVariable entry.1) = none := by
    rw [List.lookup_eq_none_iff]
    intro other hMem
    obtain ⟨e, hLaterEntry, rfl⟩ := List.mem_map.mp (List.mem_reverse.mp hMem)
    exact bne_iff_ne.mpr (hLater e.1 (List.mem_map_of_mem hLaterEntry)).symm
  have hAxes : c.axes.reverse.lookup (axisVariable entry.1) = some entry.2 := by
    rw [axes, hEntries, List.map_append, List.map_cons, List.reverse_append, List.reverse_cons,
      List.append_assoc, List.lookup_append, hBack, Option.none_or]
    simp
  rw [get?_environment, hIdentity, Option.none_or, hAxes, Option.some_or]

/-- A command that names an axis becomes the value of the axis. -/
theorem command_of_axis (word : IsAxisWord axis)
    (hRun : c.task.run = "$\x7b\x7b matrix." ++ axis ++ " \x7d\x7d")
    (hValue : c.parameters.get? axis = some value) (process : String → Option String) :
    c.command process = value := by
  have hText : c.task.run.toList = Interpolation.opening ++
      (' ' :: ("matrix.".toList ++ axis.toList) ++ [' ']) ++ Interpolation.closing := by
    simp [hRun, Interpolation.opening, Interpolation.closing]
  have hBrace : '\x7d' ∉ axis.toList := fun hMem => absurd (word.printed hMem).2 (by decide)
  have hTrim : Text.trim ("matrix.".toList ++ axis.toList) = "matrix.".toList ++ axis.toList := by
    refine Text.trim_append_eq_self (by decide) (by decide) fun ch hLast => ?_
    have hPrinted := word.printed (List.mem_of_getLast? hLast)
    exact Text.isBlank_eq_false_of_printed hPrinted.1 (by omega)
  rw [command, Interpolation.interpolate_expression _ hText (by simpa using hBrace) hTrim,
    Interpolation.Scope.value_matrix, String.ofList_toList, hValue, Option.getD_some]

end TaskContext

namespace Matrix

variable {m : Matrix} {workflow : String} {newId : Nat → JobId} {expansion : Expansion}

/-- Jobs that differ do so in the value of an axis. -/
theorem exists_axis_of_ne (h : m.expand workflow newId = .ok expansion) {a b : Job}
    (ha : a ∈ expansion.jobs) (hb : b ∈ expansion.jobs) (hDiffer : a ≠ b) :
    ∃ axis ∈ m.axes.keys, a.parameters.get? axis ≠ b.parameters.get? axis := by
  have hKeys := fun {job : Job} (hMem : job ∈ expansion.jobs) => (isTuple_of_expand h hMem).keys_eq
  by_contra hNone
  simp only [not_exists, not_and, ne_eq, not_not] at hNone
  refine hDiffer (eq_of_parameters_eq h ha hb ?_)
  refine Table.eq_of_alike ((hKeys ha).trans (hKeys hb).symm) fun axis => ?_
  by_cases hAxis : axis ∈ m.axes.keys
  · exact hNone axis hAxis
  · -- neither job has a name that is no axis
    have hAbsent : ∀ {job : Job}, job ∈ expansion.jobs → job.parameters.get? axis = none := by
      intro job hMem
      rw [Option.eq_none_iff_forall_ne_some]
      intro value hValue
      exact hAxis (hKeys hMem ▸ Table.mem_keys_iff.mpr ⟨value, hValue⟩)
    rw [hAbsent ha, hAbsent hb]

/-- Every job has a value of every axis. A task that runs for the job is told that value by its
command, where this names the axis, and by its environment, if the axis is shown. Two jobs differ in
the value of some axis, and the environments of their tasks in the variable of every such axis that
is shown. -/
theorem axes_told_to_task (hExpand : m.expand workflow newId = .ok expansion) :
    (∀ job ∈ expansion.jobs, ∀ axis ∈ m.axes.keys, ∃ value,
      job.parameters.get? axis = some value ∧
      ∀ c : TaskContext, c.parameters = job.parameters →
        (Shown m.axes.keys axis → c.environment.get? (axisVariable axis) = some value) ∧
        (IsAxisWord axis → c.task.run = "$\x7b\x7b matrix." ++ axis ++ " \x7d\x7d" →
          ∀ process, c.command process = value)) ∧
    (∀ job ∈ expansion.jobs, ∀ other ∈ expansion.jobs, job ≠ other →
      (∃ axis ∈ m.axes.keys, job.parameters.get? axis ≠ other.parameters.get? axis) ∧
      ∀ axis ∈ m.axes.keys, job.parameters.get? axis ≠ other.parameters.get? axis →
        Shown m.axes.keys axis → ∀ c d : TaskContext, c.parameters = job.parameters →
          d.parameters = other.parameters →
            c.environment.get? (axisVariable axis) ≠ d.environment.get? (axisVariable axis)) := by
  have hKeys : ∀ job ∈ expansion.jobs, job.parameters.keys = m.axes.keys :=
    fun job hMem => (isTuple_of_expand hExpand hMem).keys_eq
  have hTold : ∀ job ∈ expansion.jobs, ∀ axis, Shown m.axes.keys axis → ∀ value,
      job.parameters.get? axis = some value → ∀ c : TaskContext, c.parameters = job.parameters →
        c.environment.get? (axisVariable axis) = some value := by
    intro job hMem axis shown value hValue c hParameters
    rw [← hKeys job hMem, ← hParameters] at shown
    exact c.get?_environment_of_shown shown (hParameters ▸ hValue)
  have hValues : ∀ job ∈ expansion.jobs, ∀ axis ∈ m.axes.keys,
      ∃ value, job.parameters.get? axis = some value :=
    fun job hMem axis hAxis => Table.mem_keys_iff.mp (hKeys job hMem ▸ hAxis)
  constructor
  · intro job hMem axis hAxis
    obtain ⟨value, hValue⟩ := hValues job hMem axis hAxis
    refine ⟨value, hValue, fun c hParameters => ⟨fun shown => ?_, fun word hRun process => ?_⟩⟩
    · exact hTold job hMem axis shown value hValue c hParameters
    · exact c.command_of_axis word hRun (hParameters ▸ hValue) process
  · intro job hMem other hOther hDiffer
    refine ⟨exists_axis_of_ne hExpand hMem hOther hDiffer, ?_⟩
    intro axis hAxis hValuesDiffer shown c d hc hd
    obtain ⟨value, hValue⟩ := hValues job hMem axis hAxis
    obtain ⟨value', hValue'⟩ := hValues other hOther axis hAxis
    rw [hTold job hMem axis shown value hValue c hc,
      hTold other hOther axis shown value' hValue' d hd, ← hValue, ← hValue']
    exact hValuesDiffer

/-- A workflow over these axes, of which each job runs a value of one as its command. -/
def sampleOver (axes : List (String × List String)) : Workflow where
  name := "ci"
  matrix := { axes := Table.ofList axes }
  task := { run := "$\x7b\x7b matrix.py_version \x7d\x7d" }

/-- The plan of a run of a workflow, with fixed identifiers. -/
def samplePlanOf (w : Workflow) : Except Error Plan :=
  Plan.make ⟨Uuid.ofNat 7⟩ w ⟨"main", "topic"⟩ { workspace := "." } fun i => ⟨Uuid.ofNat i⟩

/-- An axis with the variable of the name of the job is not in the environment, nor is one with the
variable of a later axis; so jobs may have the same values in the variables of all axes. -/
theorem axes_may_be_hidden :
    (∃ plan, samplePlanOf (sampleOver [("tollgate-job-name", ["a"])]) = .ok plan ∧
      IsAxisWord "tollgate-job-name" ∧
      plan.graph.jobs.map (·.parameters.get? "tollgate-job-name") = [some "a"] ∧
      plan.graph.jobs.map (fun job =>
        (plan.context job).environment.get? (axisVariable "tollgate-job-name")) =
          [some "ci (tollgate-job-name=a)"]) ∧
    ∃ plan, samplePlanOf (sampleOver [("py-version", ["3.10", "3.11"]), ("py_version", ["x"])]) =
        .ok plan ∧
      IsAxisWord "py-version" ∧
      plan.graph.jobs.map (·.parameters.get? "py-version") = [some "3.10", some "3.11"] ∧
      plan.graph.jobs.map (fun job =>
        (plan.context job).environment.get? (axisVariable "py-version")) = [some "x", some "x"] ∧
      ∀ axis ∈ plan.workflow.matrix.axes.keys, ∀ job ∈ plan.graph.jobs,
        ∀ other ∈ plan.graph.jobs,
          (plan.context job).environment.get? (axisVariable axis) =
            (plan.context other).environment.get? (axisVariable axis) := by
  refine ⟨⟨_, rfl, ?_, ?_, ?_⟩, _, rfl, ?_, ?_, ?_, ?_⟩
  all_goals decide

/-- An axis that has its variable from an earlier one is told to both jobs. -/
theorem sample_axis_told :
    ∃ plan, samplePlanOf (sampleOver [("py-version", ["x"]), ("py_version", ["3.10", "3.11"])]) =
        .ok plan ∧
      Shown ["py-version", "py_version"] "py_version" ∧ IsAxisWord "py_version" ∧
      plan.graph.jobs.map (·.parameters.get? "py_version") = [some "3.10", some "3.11"] ∧
      (∀ job ∈ plan.graph.jobs, ∃ value, job.parameters.get? "py_version" = some value ∧
        (plan.context job).environment.get? "PY_VERSION" = some value ∧
        (plan.context job).command (fun _ => none) = value) ∧
      ∀ job ∈ plan.graph.jobs, ∀ other ∈ plan.graph.jobs, job ≠ other →
        (plan.context job).environment.get? "PY_VERSION" ≠
          (plan.context other).environment.get? "PY_VERSION" := by
  have shown : Shown ["py-version", "py_version"] "py_version" :=
    ⟨by decide, ["py-version"], [], rfl, by decide⟩
  have word : IsAxisWord "py_version" := by decide
  obtain ⟨plan, hPlan, hValues, hDiffer, hRun⟩ : ∃ plan,
      samplePlanOf (sampleOver [("py-version", ["x"]), ("py_version", ["3.10", "3.11"])]) =
        .ok plan ∧
      plan.graph.jobs.map (·.parameters.get? "py_version") = [some "3.10", some "3.11"] ∧
      (∀ job ∈ plan.graph.jobs, ∀ other ∈ plan.graph.jobs, job ≠ other →
        job.parameters.get? "py_version" ≠ other.parameters.get? "py_version") ∧
      plan.workflow.task.run = "$\x7b\x7b matrix.py_version \x7d\x7d" :=
    ⟨_, rfl, rfl, by decide, rfl⟩
  obtain ⟨expansion, -, hExpand, hJobs, -⟩ := Plan.of_make hPlan
  rw [hJobs] at hDiffer
  obtain ⟨hTold, hPairs⟩ := axes_told_to_task hExpand
  refine ⟨plan, hPlan, shown, word, hValues, ?_, ?_⟩
  · rw [hJobs]
    intro job hMem
    obtain ⟨value, hValue, hContext⟩ := hTold job hMem "py_version" (by decide)
    obtain ⟨hEnvironment, hCommand⟩ := hContext (plan.context job) rfl
    exact ⟨value, hValue, hEnvironment shown, hCommand word hRun _⟩
  · rw [hJobs]
    intro job hMem other hOther hNe
    obtain ⟨-, hApart⟩ := hPairs job hMem other hOther hNe
    exact hApart "py_version" (by decide) (hDiffer job hMem other hOther hNe) shown _ _ rfl rfl

end Matrix

end ChangeGate
