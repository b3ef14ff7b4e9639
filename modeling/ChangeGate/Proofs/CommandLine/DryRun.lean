import ChangeGate.CommandLine.Perform
import ChangeGate.Proofs.FileTree
import ChangeGate.Proofs.Form.Workflow
import ChangeGate.Proofs.Run.Call
import ChangeGate.Proofs.Run.Prediction
import ChangeGate.Proofs.Text.Utf8

/-! The commands that run nothing foretell what a run does. Whether a workflow file is found valid,
whether its jobs are listed, and whether a run of it starts come to the same; and a run that can
keep its decision, and that nobody cancels, takes the decision that is shown without it, and skips
or fails the jobs that are listed as gated. -/

namespace ChangeGate

open Run
open Directory (isKey entryName Spares)

/-- The lines of jobs that are gated unless they always run. -/
theorem JobGraph.map_jobLine {g : JobGraph} (hPolicy : g.policy = .respectAlwaysRun) :
    g.jobs.map (fun job =>
        CommandLine.Display.jobLine job.index job.name (g.dependsOnDetector job.id)) =
      (g.jobs.map Job.description).map fun (index, name, _, alwaysRun) =>
        CommandLine.Display.jobLine index name (!alwaysRun) := by
  rw [List.map_map]
  refine List.map_congr_left fun job hMem => ?_
  rw [dependsOnDetector_of_mem hMem, hPolicy]
  rfl

namespace CommandLine

/-- What a line that lists a job says: its place, its name, and whether it waits for the decision on
changes or always runs. -/
def listedLine (index : Nat) (name : String) (gated : Bool) : String :=
  let place := toString index
  "  " ++ String.ofList (List.replicate (3 - place.toList.length) ' ') ++ place ++ "  " ++ name ++
    "  " ++ if gated then "gated on changes" else "always runs"

theorem jobLine_eq_listedLine (index : Nat) (name : String) (gated : Bool) :
    Display.jobLine index name gated = listedLine index name gated := by
  have hPlace : Display.padded 3 index =
      String.ofList (List.replicate (3 - (toString index).toList.length) ' ') ++ toString index := by
    rw [Display.padded, List.leftpad, String.ofList_append, String.ofList_toList]
  simp only [Display.jobLine, listedLine, hPlace, String.append_assoc]

namespace Place

variable {p q : Place} {path : String} {w : Workflow} {o : RunOptions} {plan : Plan}

/-- The jobs of a workflow file get identifiers that differ. -/
def FreshIds (p : Place) (path : String) : Prop :=
  ∀ w expansion, p.workflow path = .ok w → p.expansion w = .ok expansion →
    (expansion.jobs.map (·.id)).Nodup

theorem freshIds_of_read {expansion : Expansion} (hRead : p.workflow path = .ok w)
    (hExpand : p.expansion w = .ok expansion) (hIds : (expansion.jobs.map (·.id)).Nodup) :
    p.FreshIds path := by
  intro w' expansion' hRead' hExpand'
  obtain rfl := Except.ok.inj (hRead.symm.trans hRead')
  obtain rfl := Except.ok.inj (hExpand.symm.trans hExpand')
  exact hIds

theorem of_workflow (h : p.workflow path = .ok w) : w.check = .ok () ∧ w.matrix.Bounded := by
  obtain ⟨text, -, h⟩ := ok_of_bind h
  exact Workflow.of_text (ok_of_mapError h)

/-- A workflow is read from a file that holds the bytes of its text. -/
theorem workflow_of_file {text : String}
    (hFile : p.machine.files.read p.machine.directory path =
      .ok (Text.Utf8.encode text.toList))
    (h : Workflow.ofText text = .ok w) : p.workflow path = .ok w := by
  rw [workflow, FileTree.readText_of_read hFile]
  change (Workflow.ofText text).mapError _ = _
  rw [h]
  rfl

/-- Whether a workflow expands is the same everywhere, and so are its jobs but for their
identifiers. -/
theorem exists_expansion {expansion : Expansion} (h : q.expansion w = .ok expansion) (p : Place) :
    ∃ expansion', p.expansion w = .ok expansion' ∧
      expansion'.jobs.map Job.description = expansion.jobs.map Job.description := by
  obtain ⟨expansion', hExpand, hJobs⟩ :=
    Matrix.expand_rename (ok_of_mapError h) fun i => ⟨p.newId (i + 1)⟩
  exact ⟨expansion', by rw [Place.expansion, hExpand]; rfl, hJobs⟩

theorem validate_ok_iff :
    (∃ a, p.validate path = .ok a) ↔
      ∃ w expansion, p.workflow path = .ok w ∧ p.expansion w = .ok expansion := by
  constructor
  · rintro ⟨a, h⟩
    obtain ⟨w, hFile, h⟩ := ok_of_bind h
    obtain ⟨expansion, hExpand, -⟩ := ok_of_bind h
    exact ⟨w, expansion, hFile, hExpand⟩
  · rintro ⟨w, expansion, hFile, hExpand⟩
    refine ⟨p.say (Display.workflow w expansion), ?_⟩
    rw [validate, hFile]
    change (p.expansion w).bind _ = _
    rw [hExpand]
    rfl

/-- What is listed of the jobs of a workflow that expands. -/
theorem expand_eq {expansion : Expansion} (fresh : p.FreshIds path)
    (hFile : p.workflow path = .ok w) (hExpand : p.expansion w = .ok expansion) :
    p.expand path = .ok (p.say (w.name ::
      (expansion.jobs.map Job.description).map fun (index, name, _, alwaysRun) =>
        Display.jobLine index name (!alwaysRun))) := by
  obtain ⟨graph, hBuild⟩ := JobGraph.exists_build Digraph.sorts_order? .respectAlwaysRun
    (Matrix.of_expand (ok_of_mapError hExpand)).1 (fresh w expansion hFile hExpand)
  obtain ⟨hJobs, hPolicy⟩ := JobGraph.jobs_of_build hBuild
  rw [expand, hFile]
  change (p.expansion w).bind _ = _
  rw [hExpand]
  change ((JobGraph.build expansion .respectAlwaysRun).mapError _).bind _ = _
  rw [hBuild, ← hJobs, ← JobGraph.map_jobLine hPolicy]
  rfl

theorem expand_ok_iff (fresh : p.FreshIds path) :
    (∃ a, p.expand path = .ok a) ↔
      ∃ w expansion, p.workflow path = .ok w ∧ p.expansion w = .ok expansion := by
  constructor
  · rintro ⟨a, h⟩
    obtain ⟨w, hFile, h⟩ := ok_of_bind h
    obtain ⟨expansion, hExpand, -⟩ := ok_of_bind h
    exact ⟨w, expansion, hFile, hExpand⟩
  · rintro ⟨w, expansion, hFile, hExpand⟩
    exact ⟨_, expand_eq fresh hFile hExpand⟩

theorem plan_ok_iff (fresh : q.FreshIds path) (hFile : q.workflow path = .ok w) :
    (∃ plan, q.plan w o = .ok plan) ↔ ∃ expansion, q.expansion w = .ok expansion := by
  constructor
  · rintro ⟨plan, hPlan⟩
    obtain ⟨expansion, -, hExpand, -⟩ := Plan.of_make hPlan
    exact ⟨expansion, by rw [Place.expansion, hExpand]; rfl⟩
  · rintro ⟨expansion, hExpand⟩
    obtain ⟨plan, hPlan, -⟩ := Plan.exists_make q.runId ⟨o.changes.base, o.changes.head⟩
      { workspace := q.workspace o, maxParallel := q.maxParallel o } _ (of_workflow hFile).1
      (ok_of_mapError hExpand) (fresh w expansion hFile hExpand)
    exact ⟨plan, hPlan⟩

/-- The jobs that are listed are those of the plan of a run. -/
theorem expand_of_plan (fresh : p.FreshIds path) (hFile : p.workflow path = .ok w)
    (hPlan : q.plan w o = .ok plan) :
    p.expand path = .ok (p.say (w.name :: plan.graph.jobs.map fun job =>
      Display.jobLine job.index job.name (plan.isGated job))) := by
  obtain ⟨expansion, -, hExpand, hJobs, hPolicy, -⟩ := Plan.of_make hPlan
  have hHere : q.expansion w = .ok expansion := by rw [Place.expansion, hExpand]; rfl
  obtain ⟨expansion', hThere, hSame⟩ := exists_expansion hHere p
  rw [expand_eq fresh hFile hThere, hSame, ← hJobs, ← JobGraph.map_jobLine hPolicy]
  rfl

/-- The decision that is shown is what the detector of a plan judges on the same paths. -/
theorem judge_of_plan {changes : Changes} {diff : Except Error (List String)}
    (hFile : p.workflow path = .ok w) (hPlan : q.plan w o = .ok plan)
    (hDiff : p.changedPaths changes (p.config.workspace.getD ".") = .ok diff) :
    p.judge path changes = (plan.detector.evaluate diff).map (plan.detector, ·) := by
  rw [judge, hFile, Plan.detector_of_make hPlan]
  change (p.changedPaths changes _).bind _ = _
  rw [hDiff]
  cases h : (Detector.ofWorkflow w.changeDetection).evaluate diff <;>
    simp [bind, Except.bind, Except.map, h, pure, Except.pure]

/-- The surroundings of a run that can keep its decision. The paths that are listed are those of its
source, its key may stand in a file name, its directory is there without a file of the key, and
others leave the directory there and keep away from that file. -/
structure Keepable (q : Place) (o : RunOptions) (plan : Plan) (files : Files)
    (world : World Directory) : Prop where
  listing : ∀ diff, world.listing diff ↔ q.changedPaths o.changes (q.workspace o) = .ok diff
  key : isKey plan.detector.key = true
  free : files.get? (entryName plan.detector.key) = none
  others : ∀ p s t, world.others p s t → Spares plan.detector.key s t

/-- What the commands that run nothing have said of the report of a run: a line for the workflow and
one for each of its jobs, in their order, with its place, its name and its gating; the decision, and
that the gated jobs are skipped where there are no relevant changes; or that there is no decision,
and the gated jobs fail for it. -/
structure Foretold (p : Place) (path : String) (changes : Changes) (report : RunReport) :
    Prop where
  listed : p.expand path = .ok
    { output := String.join <| List.map (fun line => line ++ "\n") <|
        report.workflow :: report.jobs.map fun r => listedLine r.index r.name r.gated
      files := p.machine.files }
  decided : ∀ detector decision, p.judge path changes = .ok (detector, decision) →
    report.decision = some decision ∧
      ∀ r ∈ report.jobs, r.outcome = .skipped ↔ r.gated = true ∧ decision.changesDetected = false
  undecided : ∀ e, p.judge path changes = .error e →
    report.decision = none ∧ report.detectorError = some e.message ∧
      ∀ r ∈ report.jobs, r.outcome = .upstreamFailure ↔ r.gated = true

theorem foretold_of_report {changes : Changes} {diff : Except Error (List String)} {files : Files}
    {world : World Directory} {actions : List Action} {c : Progress × Directory}
    {report : RunReport} (fresh : p.FreshIds path) (hFile : p.workflow path = .ok w)
    (hPlan : q.plan w o = .ok plan)
    (hDiff : p.changedPaths changes (p.config.workspace.getD ".") = .ok diff)
    (hSame : q.changedPaths o.changes (q.workspace o) = .ok diff)
    (keepable : Keepable q o plan files world)
    (run : Runs plan Store.directory world (Progress.start plan, some files) actions c)
    (hUncancelled : Action.cancel ∉ actions) (hReport : c.1.report? = some report) :
    Foretold p path changes report := by
  have hListing : ∀ paths, world.listing paths → paths = diff := fun paths hListed =>
    Except.ok.inj (((keepable.listing paths).mp hListed).symm.trans hSame)
  obtain ⟨hFindings, hJobs⟩ :=
    run.foreseen keepable.key keepable.free hListing keepable.others hUncancelled hReport
  have hJudge := judge_of_plan hFile hPlan hDiff
  refine ⟨?_, ?_, ?_⟩
  · obtain ⟨_, -, -, -, -, -, hWorkflow, -⟩ := Plan.of_make hPlan
    have hName : report.workflow = w.name := by
      rw [(run.agrees_of_report? hReport).workflow_eq, hWorkflow]
    have hLines := congrArg (List.map fun (index, name, gated) => Display.jobLine index name gated)
      (run.jobs_reported hReport)
    simp only [List.map_map, Function.comp_def] at hLines
    simp only [← jobLine_eq_listedLine]
    rw [expand_of_plan fresh hFile hPlan, hName, hLines]
    rfl
  · intro detector decision hDecided
    rw [hJudge] at hDecided
    cases hEvaluate : plan.detector.evaluate diff with
    | error e => rw [hEvaluate] at hDecided; cases hDecided
    | ok d =>
        rw [hEvaluate] at hDecided hFindings hJobs
        cases hDecided
        exact ⟨congrArg Prod.fst hFindings, fun r hMem => (hJobs r hMem).1⟩
  · intro e hUndecided
    rw [hJudge] at hUndecided
    cases hEvaluate : plan.detector.evaluate diff with
    | ok d => rw [hEvaluate] at hUndecided; cases hUndecided
    | error fault =>
        rw [hEvaluate] at hUndecided hFindings hJobs
        cases hUndecided
        exact ⟨congrArg Prod.fst hFindings, congrArg Prod.snd hFindings,
          fun r hMem => (hJobs r hMem).1⟩

/-- A run that can be made comes to its report, unless more jobs are to run at once than slots can
be handed out. -/
theorem exists_report_of_plan {files : Files} {world : World Directory} {actions : List Action}
    {c : Progress × Directory} (hFile : q.workflow path = .ok w) (hPlan : q.plan w o = .ok plan)
    (hSlots : ∀ n, q.maxParallel o = some n → n ≤ Plan.maxSlots) (hReturns : world.Returns)
    (run : Runs plan Store.directory world (Progress.start plan, some files) actions c)
    (hStuck : ¬ (Call.running plan c).CanGoOn Store.directory world) :
    ∃ report, c.1.report? = some report := by
  have hWithin : ∀ n, (q.maxParallel o).or w.matrix.maxParallel = some n → n ≤ Plan.maxSlots := by
    intro n hSome
    cases hAsked : q.maxParallel o with
    | some k =>
        rw [hAsked] at hSome
        exact hSlots n (hAsked.trans hSome)
    | none =>
        rw [hAsked] at hSome
        exact Nat.le_trans ((of_workflow hFile).2 n hSome) (by decide)
  obtain ⟨hLimit, hMost⟩ := Plan.limit_le_of_make hPlan hWithin
  exact run.exists_report_of_stuck hLimit hMost hReturns hStuck

/-- A workflow file is found valid exactly if its jobs are listed, and exactly if a run of it
starts. And where the decision of the run can be kept, the paths that both see are the same, and
nobody cancels: whatever the order in which the detector and the jobs go on, the report of the run
is foretold, and there is one once nobody can go on, unless more jobs are to run at once than slots
can be handed out. -/
theorem dry_runs_predict_run {changes : Changes} (hFile : q.workflow path = p.workflow path)
    (hIds : p.FreshIds path) (hRunIds : q.FreshIds path) :
    ((∃ a, p.validate path = .ok a) ↔ ∃ a, p.expand path = .ok a) ∧
    ((∃ a, p.expand path = .ok a) ↔
      ∃ w plan, q.workflow path = .ok w ∧ q.plan w o = .ok plan) ∧
    ∀ w plan, q.workflow path = .ok w → q.plan w o = .ok plan → ∀ diff files world,
      p.changedPaths changes (p.config.workspace.getD ".") = .ok diff →
      q.changedPaths o.changes (q.workspace o) = .ok diff →
      Keepable q o plan files world → ∀ actions c,
        Runs plan Store.directory world (Progress.start plan, some files) actions c →
        Action.cancel ∉ actions →
          (∀ report, c.1.report? = some report → Foretold p path changes report) ∧
          ((∀ n, q.maxParallel o = some n → n ≤ Plan.maxSlots) → world.Returns →
            ¬ (Call.running plan c).CanGoOn Store.directory world →
              ∃ report, c.1.report? = some report) := by
  refine ⟨validate_ok_iff.trans (expand_ok_iff hIds).symm, (expand_ok_iff hIds).trans ⟨?_, ?_⟩, ?_⟩
  · rintro ⟨w, expansion, hRead, hExpand⟩
    obtain ⟨expansion', hThere, -⟩ := exists_expansion hExpand q
    have hReadThere := hFile.trans hRead
    obtain ⟨plan, hPlan⟩ := (plan_ok_iff hRunIds hReadThere).mpr ⟨expansion', hThere⟩
    exact ⟨w, plan, hReadThere, hPlan⟩
  · rintro ⟨w, plan, hRead, hPlan⟩
    obtain ⟨expansion, hExpand⟩ := (plan_ok_iff hRunIds hRead).mp ⟨plan, hPlan⟩
    obtain ⟨expansion', hHere, -⟩ := exists_expansion hExpand p
    exact ⟨w, expansion', hFile.symm.trans hRead, hHere⟩
  · intro w plan hRead hPlan diff files world hDiff hSame keepable actions c run hUncancelled
    refine ⟨fun report hReport => ?_, fun hSlots hReturns hStuck => ?_⟩
    · exact foretold_of_report hIds (hFile.symm.trans hRead) hPlan hDiff hSame keepable run
        hUncancelled hReport
    · exact exists_report_of_plan hRead hPlan hSlots hReturns run hStuck

/-- The text of the sample workflow: two jobs, one of which always runs. -/
def sampleText : String :=
  "name: b
change_detection: \x7bpatterns: [src/]\x7d
matrix: \x7baxes: \x7bx: [1, 2]\x7d, instances: [\x7bx: 1\x7d, \x7bx: 2, always_run: true\x7d]\x7d
task: \x7brun: make\x7d
"

/-- A place with the workflow in a file, where one changed path is given as input. -/
def samplePlace (first : Nat) : Place where
  machine :=
    { files := ⟨Table.ofList [("/work", .directory),
        ("/work/tollgate.yaml", .file (Text.Utf8.encode sampleText.toList))]⟩
      directory := "/work"
      environment := ∅ }
  input := Text.Utf8.encode "docs/a\n".toList
  git := fun _ _ => .error .notFound
  newId := fun i => .ofNat (first + i)
  moment := fun _ => sampleMoment

/-- A run without relevant changes: the second job runs while the first one is skipped. -/
def skippingSchedule : List (Action × Moment) :=
  scheduled
    [.advance, .advance, .detect, .work 0, .work 1, .work 0, .work 1, .listed (.ok ["docs/a"]),
      .detect, .detect, .detect, .work 0, .work 0, .work 0, .work 1, .work 1,
      .returned 1 (.ok ⟨0, true⟩), .work 1, .advance, .advance, .advance]

/-- The world of that run: the path that is given, and bodies that succeed. -/
def skippingWorld : World Directory := .fixed (.ok ["docs/a"]) fun _ => .ok ⟨0, true⟩

def sampleChanges : Changes := { changedFrom := some "-" }

def sampleOptions : RunOptions := { changes := sampleChanges }

/-- What the sample places come to: identifiers differ in both, the key may stand in a file name,
and the schedule can be played to a report in a directory that is empty. -/
def sampleCheck : Option Bool := do
  let w ← (Workflow.ofText sampleText).toOption
  let here ← ((samplePlace 0).expansion w).toOption
  let there ← ((samplePlace 100).expansion w).toOption
  let plan ← ((samplePlace 100).plan w sampleOptions).toOption
  return decide (here.jobs.map (·.id)).Nodup && decide (there.jobs.map (·.id)).Nodup &&
    isKey plan.detector.key &&
    (replay plan Store.directory skippingSchedule (Progress.start plan, some ∅)).any
      fun c => c.1.report?.any fun report =>
        report.jobs.map (fun r => (listedLine r.index r.name r.gated, r.outcome)) =
          [("    0  b (x=1)  gated on changes", .skipped), ("    1  b (x=2)  always runs", .succeeded)]

theorem workflow_samplePlace (first : Nat) (h : Workflow.ofText sampleText = .ok w) :
    (samplePlace first).workflow "tollgate.yaml" = .ok w := by
  have hNames : FileTree.names "/work" "tollgate.yaml" = ["work", "tollgate.yaml"] := by
    decide +kernel
  have hEnd : "tollgate.yaml".endsWith "/" = false := by decide +kernel
  have hWalk : (samplePlace first).machine.files.walk [] ["work", "tollgate.yaml"] =
      .ok (.file (Text.Utf8.encode sampleText.toList)) := rfl
  refine workflow_of_file ?_ h
  rw [show (samplePlace first).machine.directory = "/work" from rfl, FileTree.read,
    FileTree.lookup, hNames, hWalk]
  simp [hEnd]

theorem changedPaths_samplePlace (first : Nat) (workspace : String) :
    (samplePlace first).changedPaths sampleChanges workspace = .ok (.ok ["docs/a"]) := by
  have hRead : ChangedPaths.ofBytes (Text.Utf8.encode "docs/a\n".toList) = .ok ["docs/a"] :=
    ok_of_toOption (by decide +kernel)
  have hInput : (samplePlace first).changedPaths sampleChanges workspace =
      (ChangedPaths.ofBytes (Text.Utf8.encode "docs/a\n".toList)).bind fun paths =>
        .ok (.ok paths) := rfl
  rw [hInput, hRead]
  rfl

/-- The sample workflow is valid, a run of it skips the first job and goes through the second, and
the report of that run is foretold. -/
theorem sample_run_foretold :
    (∃ a, (samplePlace 0).validate "tollgate.yaml" = .ok a) ∧
    ∃ w plan actions c report, (samplePlace 100).workflow "tollgate.yaml" = .ok w ∧
      (samplePlace 100).plan w sampleOptions = .ok plan ∧
      Runs plan Store.directory skippingWorld (Progress.start plan, some ∅) actions c ∧
      c.1.report? = some report ∧
      report.jobs.map (fun r => (listedLine r.index r.name r.gated, r.outcome)) =
        [("    0  b (x=1)  gated on changes", .skipped),
          ("    1  b (x=2)  always runs", .succeeded)] ∧
      Foretold (samplePlace 0) "tollgate.yaml" sampleChanges report := by
  have hCheck : sampleCheck = some true := by decide +kernel
  simp only [sampleCheck, bind, pure, Option.bind_eq_some_iff, Option.some.injEq, Bool.and_eq_true,
    decide_eq_true_eq] at hCheck
  obtain ⟨w, hText, here, hExpandHere, there, hExpandThere, plan, hPlan, ⟨⟨hIdsHere, hIdsThere⟩,
    hKey⟩, hPlays⟩ := hCheck
  have hFile := fun first => workflow_samplePlace first (ok_of_toOption hText)
  have freshHere := freshIds_of_read (hFile 0) (ok_of_toOption hExpandHere) hIdsHere
  have freshThere := freshIds_of_read (hFile 100) (ok_of_toOption hExpandThere) hIdsThere
  have keepable : Keepable (samplePlace 100) sampleOptions plan ∅ skippingWorld :=
    { listing := fun diff => by
        rw [show sampleOptions.changes = sampleChanges from rfl, changedPaths_samplePlace,
          Except.ok.injEq, eq_comm]
        rfl
      key := hKey
      free := rfl
      others := fun _ _ _ => False.elim }
  have hAnswers : ∀ entry ∈ skippingSchedule, ∀ p, skippingWorld.Answers plan p entry.1 := by
    simp [skippingSchedule, scheduled, World.Answers, skippingWorld, World.fixed]
  obtain ⟨c, run, hEnd⟩ := Runs.exists_of_replay hAnswers hPlays
  obtain ⟨report, hReport, hOutcomes⟩ := (Option.any_eq_true _ _).mp hEnd
  have hPaths := changedPaths_samplePlace
  obtain ⟨hValid, hExpands, hForetold⟩ :=
    @dry_runs_predict_run (samplePlace 0) (samplePlace 100) "tollgate.yaml" sampleOptions
      sampleChanges ((hFile 100).trans (hFile 0).symm) freshHere freshThere
  obtain ⟨foretold, -⟩ := hForetold w plan (hFile 100) (ok_of_toOption hPlan) _ _ _ (hPaths _ _)
    (hPaths _ _) keepable _ c run (by simp [skippingSchedule, scheduled])
  exact ⟨hValid.mpr (hExpands.mpr ⟨w, plan, hFile 100, ok_of_toOption hPlan⟩), w, plan, _, c,
    report, hFile 100, ok_of_toOption hPlan, run, hReport, by simpa using hOutcomes,
    foretold report hReport⟩

end Place

end CommandLine

end ChangeGate
