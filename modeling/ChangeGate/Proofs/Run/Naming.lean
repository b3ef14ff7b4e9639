import ChangeGate.Proofs.Expansion.Relisting
import ChangeGate.Proofs.Plan
import ChangeGate.Proofs.Run.Completion
import ChangeGate.Proofs.Run.Ending
import ChangeGate.Proofs.Run.Replay

/-! The names of jobs. A name shows the values of a job and marks nothing in them, so that two jobs
may have one name where a value looks like the values of several axes. Apart from that, jobs are told
apart by their names. -/

namespace ChangeGate

namespace Matrix

/-- The text between a value and the value of the next axis. -/
def separator (next : String) : List Char := ", ".toList ++ next.toList ++ "=".toList

/-- The values of one tuple may be read as those of another: at the first axis at which the two
differ, which is not the last, the value of the one, with the text before the next value, is the
beginning of the value of the other with that text. -/
inductive Blurs : List (String × String) → List (String × String) → Prop where
  | here {axis next v w v' w' : String} {t u : List (String × String)} (hDiffer : v ≠ w)
      (hPrefix : v.toList ++ separator next <+: w.toList ++ separator next) :
      Blurs ((axis, v) :: (next, v') :: t) ((axis, w) :: (next, w') :: u)
  | later {entry : String × String} {t u : List (String × String)} (blurs : Blurs t u) :
      Blurs (entry :: t) (entry :: u)

/-- A value and the values of the axes after it, as they stand in a name. -/
def valueText (value : String) : List (String × String) → List Char
  | [] => value.toList
  | (next, value') :: rest => value.toList ++ separator next ++ valueText value' rest

theorem toList_values (axis value : String) (rest : List (String × String)) :
    (", ".intercalate (((axis, value) :: rest).map fun e => e.1 ++ "=" ++ e.2)).toList =
      (axis ++ "=").toList ++ valueText value rest := by
  induction rest generalizing axis value with
  | nil => simp [valueText]
  | cons entry rest ih =>
      obtain ⟨next, value'⟩ := entry
      have hRest := ih next value'
      rw [List.map_cons] at hRest
      rw [List.map_cons, List.map_cons, String.intercalate_cons_cons, String.toList_append, hRest]
      simp [valueText, separator]

theorem toList_jobName {workflow axis value : String} {rest : List (String × String)}
    {p : Parameters} (h : p.entries = (axis, value) :: rest) :
    (jobName workflow p).toList =
      (workflow ++ " (").toList ++ (axis ++ "=").toList ++ valueText value rest ++ ")".toList := by
  have hValues := toList_values axis value rest
  rw [jobName, h, String.toList_append, String.toList_append, hValues]
  simp

/-- Texts that are the same are those of the same values, or of values that may be read as one
another. -/
theorem eq_or_blurs_of_valueText {axis v w : String} {t u : List (String × String)}
    (hNames : t.map Prod.fst = u.map Prod.fst) (h : valueText v t = valueText w u) :
    (axis, v) :: t = (axis, w) :: u ∨ Blurs ((axis, v) :: t) ((axis, w) :: u) ∨
      Blurs ((axis, w) :: u) ((axis, v) :: t) := by
  induction t generalizing axis v w u with
  | nil =>
      obtain rfl : u = [] := List.map_eq_nil_iff.mp hNames.symm
      obtain rfl := String.toList_inj.mp h
      exact .inl rfl
  | cons entry t ih =>
      obtain ⟨next, v'⟩ := entry
      obtain ⟨⟨next', w'⟩, u, rfl, hNext, hRest⟩ := List.map_eq_cons_iff.mp hNames.symm
      obtain rfl : next' = next := hNext
      have hLeft : v.toList ++ separator next' <+: valueText v ((next', v') :: t) :=
        List.prefix_append _ _
      have hRight : w.toList ++ separator next' <+: valueText v ((next', v') :: t) :=
        h ▸ List.prefix_append _ _
      by_cases hSame : v = w
      · subst hSame
        rcases ih hRest.symm (List.append_cancel_left h) with hEq | hBlurs | hBlurs
        · exact .inl (congrArg _ hEq)
        · exact .inr (.inl (.later hBlurs))
        · exact .inr (.inr (.later hBlurs))
      · -- both values, with what follows them, begin one text, so one of them begins the other
        rcases List.prefix_or_prefix_of_prefix hLeft hRight with hPrefix | hPrefix
        · exact .inr (.inl (.here hSame hPrefix))
        · exact .inr (.inr (.here (Ne.symm hSame) hPrefix))

theorem eq_or_blurs_of_jobName {workflow : String} {p q : Parameters} (hKeys : p.keys = q.keys)
    (h : jobName workflow p = jobName workflow q) :
    p = q ∨ Blurs p.entries q.entries ∨ Blurs q.entries p.entries := by
  cases hp : p.entries with
  | nil =>
      rw [Table.keys, Table.keys, hp] at hKeys
      exact .inl (Table.eq_of_entries (hp.trans (List.map_eq_nil_iff.mp hKeys.symm).symm))
  | cons entry t =>
      obtain ⟨axis, v⟩ := entry
      rw [Table.keys, Table.keys, hp] at hKeys
      obtain ⟨⟨_, w⟩, u, hq, rfl, hNames⟩ := List.map_eq_cons_iff.mp hKeys.symm
      have hText := congrArg String.toList h
      rw [toList_jobName hp, toList_jobName hq] at hText
      have hSame := List.append_cancel_left (List.append_cancel_right hText)
      rw [hq]
      refine (eq_or_blurs_of_valueText hNames.symm hSame).imp_left fun hEq => ?_
      exact Table.eq_of_entries (by rw [hp, hq, hEq])

theorem comma_mem_of_prefix {next v w : String} (hDiffer : v ≠ w)
    (hPrefix : v.toList ++ separator next <+: w.toList ++ separator next) : ',' ∈ w.toList := by
  have hLength : v.toList.length ≤ w.toList.length := by simpa using hPrefix.length_le
  have hWhole : v.toList <+: w.toList ++ separator next := (List.prefix_append _ _).trans hPrefix
  obtain ⟨more, hMore⟩ : v.toList <+: w.toList :=
    List.prefix_of_prefix_length_le hWhole (List.prefix_append _ _) hLength
  obtain ⟨rest, hRest⟩ := hPrefix
  cases more with
  | nil => exact absurd (String.toList_inj.mp (by simpa using hMore)) hDiffer
  | cons c more =>
      -- what `w` has beyond `v` begins as the text before the next value
      have hComma : separator next = ',' :: ' ' :: (next.toList ++ ['=']) := by
        simp [separator]
      rw [← hMore, List.append_assoc, List.append_assoc, hComma] at hRest
      obtain ⟨rfl, -⟩ := List.cons.inj (List.append_cancel_left hRest)
      simp [← hMore]

/-- Only a value with a comma is read as others. -/
theorem Blurs.exists_comma_mem {t u : List (String × String)} (blurs : Blurs t u) :
    ∃ entry ∈ u, ',' ∈ entry.2.toList := by
  induction blurs with
  | here hDiffer hPrefix =>
      exact ⟨_, List.mem_cons_self, comma_mem_of_prefix hDiffer hPrefix⟩
  | later _ ih =>
      obtain ⟨entry, hMem, hComma⟩ := ih
      exact ⟨entry, List.mem_cons_of_mem _ hMem, hComma⟩

variable {m : Matrix} {workflow : String} {newId : Nat → JobId} {expansion : Expansion}

/-- Jobs that have one name are one job or may be read as one another. -/
theorem eq_or_blurs_of_name (h : m.expand workflow newId = .ok expansion) {a b : Job}
    (ha : a ∈ expansion.jobs) (hb : b ∈ expansion.jobs) (hName : a.name = b.name) :
    a = b ∨ Blurs a.parameters.entries b.parameters.entries ∨
      Blurs b.parameters.entries a.parameters.entries := by
  have hKeys : a.parameters.keys = b.parameters.keys :=
    (isTuple_of_expand h ha).keys_eq.trans (isTuple_of_expand h hb).keys_eq.symm
  obtain ⟨specs, -, -, -, rfl⟩ := exists_kept_of_expand h
  rw [name_of_mem_numbered ha, name_of_mem_numbered hb] at hName
  exact (eq_or_blurs_of_jobName hKeys hName).imp_left (eq_of_parameters_eq h ha hb)

/-- Where no job may be read as another, names differ. -/
theorem nodup_names (h : m.expand workflow newId = .ok expansion)
    (clear : ∀ a ∈ expansion.jobs, ∀ b ∈ expansion.jobs,
      ¬ Blurs a.parameters.entries b.parameters.entries) :
    (expansion.jobs.map (·.name)).Nodup := by
  have hJobs : expansion.jobs.Nodup := by
    refine .of_map (·.index) ?_
    rw [indices_of_expand h]
    exact List.nodup_range
  refine hJobs.map_on fun a ha b hb hName => ?_
  rcases eq_or_blurs_of_name h ha hb hName with hEq | hBlurs | hBlurs
  · exact hEq
  · exact absurd hBlurs (clear a ha b hb)
  · exact absurd hBlurs (clear b hb a ha)

/-- A matrix with a value that looks like the values of both of its axes. -/
def ambiguousMatrix : Matrix where
  axes := Table.ofList [("a", ["1", "1, b=2"]), ("b", ["3", "2, b=3"])]
  instances := [⟨Table.ofList [("a", "1"), ("b", "2, b=3")], false⟩,
    ⟨Table.ofList [("a", "1, b=2"), ("b", "3")], false⟩]

/-- Jobs that may be read as one another may have one name, though their values differ. -/
theorem names_may_coincide :
    ambiguousMatrix.checkAxes = .ok () ∧
    ∃ expansion, ambiguousMatrix.expand "ci" (fun i => ⟨Uuid.ofNat i⟩) = .ok expansion ∧
      expansion.jobs.map (·.name) = ["ci (a=1, b=2, b=3)", "ci (a=1, b=2, b=3)"] ∧
      (expansion.jobs.map (·.parameters)).Nodup ∧ ¬ (expansion.jobs.map (·.name)).Nodup :=
  ⟨by decide +kernel, _, rfl, by decide +kernel, by decide +kernel, by decide +kernel⟩

end Matrix

/-- Where names differ, a job is found by its name. -/
theorem RunReport.job?_of_nodup {report : RunReport} (h : (report.jobs.map (·.name)).Nodup)
    {r : JobReport} (hMem : r ∈ report.jobs) : report.job? r.name = some r := by
  cases hFound : report.job? r.name with
  | none => simpa using List.find?_eq_none.mp hFound r hMem
  | some other =>
      unfold RunReport.job? at hFound
      have hName : other.name = r.name := by simpa using List.find?_some hFound
      rw [List.inj_on_of_nodup_map h (List.mem_of_find?_eq_some hFound) hMem hName]

theorem TaskContext.jobName_environment (c : TaskContext) :
    c.environment.get? "TOLLGATE_JOB_NAME" = some c.name :=
  Table.get?_insert_self _ _ _

namespace Run

variable {σ : Type} {plan : Plan} {store : Store σ} {world : World σ} {s₀ : σ}
  {c : Progress × σ} {actions : List Action} {report : RunReport}

theorem Runs.names_of_agrees (run : Runs plan store world (Progress.start plan, s₀) actions c)
    (agrees : Agrees plan c.1 report) :
    report.jobs.map (·.name) = plan.graph.jobs.map (·.name) := by
  symm
  refine run.map_reports agrees fun w hMem r hGated hDone => ?_
  obtain ⟨ending, completedAt, due, rfl⟩ := run.due_of_done hMem hDone
  rfl

/-- Where no job of a workflow may be read as another, all have different names, the task of each is
told its own, and in the report of every run each job is found by its name. -/
theorem names_tell_jobs_apart {workflow : Workflow} {newId : Nat → JobId} {expansion : Expansion}
    (hExpand : workflow.matrix.expand workflow.name newId = .ok expansion)
    (clear : ∀ a ∈ expansion.jobs, ∀ b ∈ expansion.jobs,
      ¬ Matrix.Blurs a.parameters.entries b.parameters.entries) :
    (expansion.jobs.map (·.name)).Nodup ∧
    ∀ (runId : RunId) (revisions : Revisions) (settings : Settings) (detector : Detector)
      (plan : Plan), Plan.make runId workflow revisions settings newId detector = .ok plan →
      (∀ job ∈ plan.graph.jobs,
        (plan.context job).environment.get? "TOLLGATE_JOB_NAME" = some job.name) ∧
      (plan.graph.jobs.map fun job =>
        (plan.context job).environment.get? "TOLLGATE_JOB_NAME").Nodup ∧
      ∀ (σ : Type) (store : Store σ) (world : World σ) (s₀ : σ) (actions : List Action)
        (c : Progress × σ) (report : RunReport),
        Runs plan store world (Progress.start plan, s₀) actions c →
        c.1.report? = some report → ∀ r ∈ report.jobs, report.job? r.name = some r := by
  have hNames := Matrix.nodup_names hExpand clear
  refine ⟨hNames, fun runId revisions settings detector plan hPlan => ?_⟩
  obtain ⟨expansion', -, hExpand', hJobs, -⟩ := Plan.of_make hPlan
  obtain rfl := Except.ok.inj (hExpand'.symm.trans hExpand)
  have hTold : ∀ job, (plan.context job).environment.get? "TOLLGATE_JOB_NAME" = some job.name :=
    fun job => (plan.context job).jobName_environment
  refine ⟨fun job _ => hTold job, ?_, ?_⟩
  · simpa [hTold, hJobs, Function.comp_def] using hNames.map (f := some) fun _ _ => Option.some.inj
  · intro σ store world s₀ actions c report run hReport r hMem
    refine RunReport.job?_of_nodup ?_ hMem
    rw [run.names_of_agrees (run.agrees_of_report? hReport), hJobs]
    exact hNames

/-- A workflow of two jobs over two axes. -/
def twoAxes : Workflow :=
  { sampleWorkflow with
    matrix :=
      { axes := Table.ofList [("os", ["a", "b"]), ("task", ["lint", "test"])]
        instances :=
          [{ parameters := Table.ofList [("task", "test"), ("os", "a")] },
            { parameters := Table.ofList [("os", "b"), ("task", "test")], alwaysRun := true }]
        maxParallel := some 1 } }

/-- The plan of the workflow. -/
def twoAxesPlan : Plan :=
  { samplePlan with
    workflow := twoAxes
    graph :=
      { jobs :=
          [⟨⟨Uuid.ofNat 0⟩, 0, "build (os=a, task=test)",
              Table.ofList [("os", "a"), ("task", "test")], false⟩,
            ⟨⟨Uuid.ofNat 1⟩, 1, "build (os=b, task=test)",
              Table.ofList [("os", "b"), ("task", "test")], true⟩]
        policy := .respectAlwaysRun
        jobs_ne_nil := by simp
        nodup_ids := by decide } }

theorem sample_jobs_found_by_name :
    ∃ expansion c actions report,
      twoAxes.matrix.expand twoAxes.name (fun i => ⟨Uuid.ofNat i⟩) = .ok expansion ∧
      (∀ a ∈ expansion.jobs, ∀ b ∈ expansion.jobs,
        ¬ Matrix.Blurs a.parameters.entries b.parameters.entries) ∧
      Runs twoAxesPlan Store.memory sampleWorld (Progress.start twoAxesPlan, ∅) actions c ∧
      c.1.report? = some report ∧ ∀ r ∈ report.jobs, report.job? r.name = some r := by
  have hPlan : Plan.make ⟨Uuid.ofNat 7⟩ twoAxes ⟨"main", "topic"⟩ { workspace := "." }
      (fun i => ⟨Uuid.ofNat i⟩) = .ok twoAxesPlan := by rfl
  obtain ⟨expansion, -, hExpand, hJobs, -⟩ := Plan.of_make hPlan
  have clear : ∀ a ∈ expansion.jobs, ∀ b ∈ expansion.jobs,
      ¬ Matrix.Blurs a.parameters.entries b.parameters.entries := by
    have hComma : ∀ job ∈ twoAxesPlan.graph.jobs, ∀ entry ∈ job.parameters.entries,
        ',' ∉ entry.2.toList := by decide +kernel
    rw [← hJobs]
    intro a _ b hb blurs
    obtain ⟨entry, hMem, hHas⟩ := blurs.exists_comma_mem
    exact hComma b hb entry hMem hHas
  have hAnswers : ∀ entry ∈ sampleSchedule, ∀ p,
      (sampleWorld : World (Table Json)).Answers twoAxesPlan p entry.1 := by
    simp [sampleSchedule, scheduled, World.Answers, sampleWorld, World.fixed]
  have hCheck : (replay twoAxesPlan Store.memory sampleSchedule
      (Progress.start twoAxesPlan, ∅)).any (fun c => c.1.report?.isSome) = true := by decide
  obtain ⟨c, run, hEnd⟩ := Runs.exists_of_replay hAnswers hCheck
  obtain ⟨report, hReport⟩ := Option.isSome_iff_exists.mp hEnd
  obtain ⟨-, hPlans⟩ := names_tell_jobs_apart hExpand clear
  obtain ⟨-, -, hFound⟩ := hPlans _ _ _ _ _ hPlan
  exact ⟨expansion, c, _, report, hExpand, clear, run, hReport,
    hFound _ _ _ _ _ _ _ run hReport⟩

end Run

end ChangeGate
