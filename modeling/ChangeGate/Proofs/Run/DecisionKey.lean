import ChangeGate.Proofs.Plan
import ChangeGate.Proofs.Run.Prediction
import ChangeGate.Proofs.Run.Publication
import ChangeGate.Proofs.Text.Blank

/-! The key of a decision is looked at twice. Before a run it is only asked not to be blank; the
directory of the run takes letters, digits and a few marks. So there are workflows in order whose
every run fails over its key: where the surroundings let the detector record what it decides, that
happens exactly with the keys that the directory does not take. -/

namespace ChangeGate

open Directory

/-- The workflow with another key for its decision. -/
def Workflow.withKey (w : Workflow) (key : String) : Workflow :=
  { w with changeDetection := { w.changeDetection with decisionKey := key } }

/-- A workflow in order stays so with another key exactly if that is not blank. -/
theorem Workflow.check_withKey_iff {w : Workflow} (hCheck : w.check = .ok ()) (key : String) :
    (w.withKey key).check = .ok () ↔ Text.isBlankText key = false := by
  unfold check at hCheck ⊢
  split_ifs at hCheck with hName hRun hTime hOwn hPattern hParallel
  simp [withKey, hName, hRun, hTime, hPattern, hParallel, hCheck]

namespace Directory

variable {key : String}

theorem isBlank_eq_false_of_isKeyChar {c : Char} (h : isKeyChar c = true) :
    Text.isBlank c = false := by
  simp only [isKeyChar, Bool.or_eq_true, beq_iff_eq] at h
  rcases h with ((hAlphanum | rfl) | rfl) | rfl
  · obtain ⟨hLow, hHigh⟩ := Text.printed_of_isAlphanum hAlphanum
    exact Text.isBlank_eq_false_of_printed hLow (by omega)
  all_goals decide

/-- A key that a directory takes is not blank. -/
theorem isBlankText_eq_false_of_isKey (hKey : isKey key = true) :
    Text.isBlankText key = false := by
  simp only [isKey, Bool.and_eq_true, List.all_eq_true] at hKey
  obtain ⟨⟨hSome, -⟩, hChars⟩ := hKey
  obtain ⟨c, hMem⟩ : ∃ c, c ∈ key.toList := by
    refine List.exists_mem_of_ne_nil _ fun hNil => ?_
    simp [String.toList_eq_nil_iff.mp hNil] at hSome
  rw [Text.isBlankText, List.all_eq_false]
  exact ⟨c, hMem, by simp [isBlank_eq_false_of_isKeyChar (hChars c hMem)]⟩

theorem putFlag_of_refused (hKey : isKey key = false) (dir : Directory) (b : Bool) :
    Store.directory.putFlag dir key b = (.error (.invalidDecisionKey key), dir) := by
  simp [Store.putFlag, Store.directory, put, hKey]

end Directory

namespace Run

open Progress

variable {plan : Plan} {world : World Directory} {start c : Progress × Directory}
  {actions : List Action} {report : RunReport}

/-- Surroundings in which a decision can be taken and recorded, as far as they are concerned: the
changed paths are listed, and others leave the directory and the file of the decision alone. -/
structure World.Recordable (world : World Directory) (key : String) : Prop where
  listed : ∀ diff, world.listing diff → ∃ paths, diff = .ok paths
  spared : ∀ p s t, world.others p s t → Spares key s t

/-- No detector has failed, and no job for want of a decision. -/
structure Unhindered (p : Progress) : Prop where
  said : ∀ text, .detectorFailed text ∉ p.said
  jobs : ∀ w ∈ p.workers, ∀ r, w.stage = .done r → r.outcome ≠ .upstreamFailure

/-- A run that has failed over the key of its decision: that is all its detector has told, there is
no decision, and the jobs that waited for it have failed with the detector. -/
structure FailedOverKey (key : String) (p : Progress) (report : RunReport) : Prop where
  said : p.said.filter isFinding = [.detectorFailed (Error.invalidDecisionKey key).message]
  decision : report.decision = none
  error : report.detectorError = some (Error.invalidDecisionKey key).message
  jobs : ∀ r ∈ report.jobs, r.outcome = .upstreamFailure ↔ r.gated = true

/-- What the detector of a run says that it failed with is an error that it returned. -/
theorem Runs.error_of_said {σ : Type} {store : Store σ} {world : World σ} {s₀ : σ}
    {c : Progress × σ} (run : Runs plan store world (Progress.start plan, s₀) actions c)
    {text : String} (hSaid : .detectorFailed text ∈ c.1.said) :
    ∃ e diff q t, Detected plan store world (Progress.start plan, s₀) actions c (.error e)
      diff q t := by
  have announced := run.announced
  have found := run.found
  have hMem : .detectorFailed text ∈ c.1.said.filter isFinding :=
    List.mem_filter.mpr ⟨hSaid, rfl⟩
  cases hAt : c.1.detection with
  | announced result =>
      rw [hAt] at announced found
      obtain ⟨diff, q, t, detected⟩ := found
      cases result with
      | error e => exact ⟨e, diff, q, t, detected⟩
      | ok decision =>
          obtain ⟨at_, hEvents⟩ := announced
          simp [hEvents] at hMem
  | ended signal decision error =>
      rw [hAt] at announced found
      cases signal with
      | failed =>
          obtain ⟨e, diff, q, t, detected, -⟩ := found
          exact ⟨e, diff, q, t, detected⟩
      | ready =>
          obtain ⟨d, at_, -, hEvents⟩ := announced
          simp [hEvents] at hMem
      | _ => simp [show c.1.said.filter isFinding = [] from announced] at hMem
  | _ =>
      rw [hAt] at announced
      simp [show c.1.said.filter isFinding = [] from announced] at hMem

/-- A detector that is ready, or has failed, has returned something. -/
theorem Runs.detected_of_signal {σ : Type} {store : Store σ} {world : World σ} {s₀ : σ}
    {c : Progress × σ} (run : Runs plan store world (Progress.start plan, s₀) actions c)
    {signal : Signal} (hSignal : c.1.detection.signal = signal)
    (hAnswered : signal = .ready ∨ signal = .failed) :
    ∃ result diff q t, Detected plan store world (Progress.start plan, s₀) actions c result
      diff q t ∧ (concluded result).signal = signal := by
  have found := run.found
  cases hAt : c.1.detection with
  | ended signal' decision error =>
      rw [hAt] at hSignal found
      rcases found.concluded with ⟨-, hCancelled⟩ | ⟨result, diff, q, t, detected, hConcluded⟩
      · rw [hCancelled] at hSignal
        subst hSignal
        rcases hAnswered with h | h <;> cases h
      · exact ⟨result, diff, q, t, detected, hConcluded ▸ hSignal⟩
  | _ =>
      rw [hAt] at hSignal
      subst hSignal
      rcases hAnswered with h | h <;> cases h

section

variable {files : Files} {p₀ : Progress} {result : Except Error Decision}
  {diff : Except Error (List String)} {q : Progress} {t : Directory}
  (surroundings : world.Recordable plan.detector.key)

include surroundings

/-- A detector whose key the directory takes returns a decision, recorded for good. -/
theorem Detected.recorded_of_isKey (hKey : isKey plan.detector.key = true)
    (hFree : files.get? (entryName plan.detector.key) = none)
    (detected : Detected plan Store.directory world (p₀, some files) actions c result diff q t) :
    ∃ decision, result = .ok decision ∧
      Store.directory.check c.2 plan.detector.key =
        .ok (Verdict.ofChanges decision.changesDetected) := by
  obtain ⟨paths, rfl⟩ := surroundings.listed _ detected.answered
  have hBefore := detected.byOthers_before.spares surroundings.spared
  have hAfter := detected.byOthers_after.spares surroundings.spared
  have hResult := detected.result_eq
  have hJudged : plan.detector.evaluate (.ok paths) = .ok (plan.detector.decide paths) := rfl
  rw [detect_of_evaluate_ok _ _ hJudged] at hResult hAfter
  have hPut := putFlag_of_spared hKey hFree hBefore (plan.detector.decide paths).changesDetected
  rw [hPut] at hResult
  refine ⟨_, hResult.symm, Store.check_of_getFlag ?_⟩
  have hFlag := (@Store.directory_keepsFlag (fun _ _ => False) plan.detector.key
    fun _ _ => id).getFlag_put hPut
  rw [Store.getFlag, show Store.directory.get = get from rfl, hAfter.get_eq]
  exact hFlag

/-- A detector whose key the directory does not take returns an error that says so. -/
theorem Detected.error_of_refused (hKey : isKey plan.detector.key = false)
    (detected : Detected plan Store.directory world start actions c result diff q t) :
    result = .error (.invalidDecisionKey plan.detector.key) := by
  obtain ⟨paths, rfl⟩ := surroundings.listed _ detected.answered
  have hResult := detected.result_eq
  have hJudged : plan.detector.evaluate (.ok paths) = .ok (plan.detector.decide paths) := rfl
  rw [detect_of_evaluate_ok _ _ hJudged, putFlag_of_refused hKey] at hResult
  exact hResult.symm

variable (run : Runs plan Store.directory world (Progress.start plan, some files) actions c)

include run

/-- With a key that the directory takes, whoever cancels, nothing fails for want of a decision. -/
theorem Runs.unhindered (hKey : isKey plan.detector.key = true)
    (hFree : files.get? (entryName plan.detector.key) = none) : Unhindered c.1 where
  said := by
    intro text hSaid
    obtain ⟨e, diff, q, t, detected⟩ := run.error_of_said hSaid
    obtain ⟨decision, hOk, -⟩ := detected.recorded_of_isKey surroundings hKey hFree
    cases hOk
  jobs := by
    intro w hMem r hDone
    obtain ⟨ending, completedAt, due, rfl⟩ := run.due_of_done hMem hDone
    cases due with
    | cancelled hCancelled => exact nofun
    | skipped hGated asked => exact nofun
    | detectionFailed hGated hSignal =>
        obtain ⟨result, diff, q, t, detected, hResult⟩ := run.detected_of_signal hSignal (.inr rfl)
        obtain ⟨decision, rfl, -⟩ := detected.recorded_of_isKey surroundings hKey hFree
        cases hResult
    | unavailable hGated asked =>
        -- the gate was asked after the decision had been recorded, and it is still there
        obtain ⟨result, diff, q, t, detected, -⟩ := run.detected_of_signal asked.ready (.inl rfl)
        obtain ⟨decision, -, hCheck⟩ := detected.recorded_of_isKey surroundings hKey hFree
        have hAnswer := asked.check_eq fun p s t change _ =>
          (surroundings.spared p s t change).get_eq
        cases hCheck.symm.trans hAnswer
    | @returned startedAt duration result cleared answered =>
        rcases outcome_of_verdict result with h | h <;> simp [jobReport, h]

/-- With any other key, a run that nobody cancels fails over it. -/
theorem Runs.failedOverKey (hKey : isKey plan.detector.key = false)
    (hUncancelled : Action.cancel ∉ actions) (hReport : c.1.report? = some report) :
    FailedOverKey plan.detector.key c.1 report := by
  have hNotCancelled : c.1.cancelled ≠ true := fun h => hUncancelled ((run.cancelled_iff rfl).mp h)
  have agrees := run.agrees_of_report? hReport
  obtain ⟨signal, hEnded⟩ := agrees.ended
  have found := run.found
  have announced := run.announced
  rw [hEnded] at found announced
  obtain ⟨result, diff, q, t, detected, hConcluded⟩ :=
    found.concluded.resolve_left fun h => hNotCancelled h.1
  obtain rfl := detected.error_of_refused surroundings hKey
  obtain ⟨rfl, hDecision, hError⟩ := Detection.ended.inj hConcluded
  have hFailed : c.1.detection.signal = .failed := by rw [hEnded]; rfl
  refine ⟨?_, hDecision, hError, fun r hMem => ?_⟩
  · obtain ⟨text, hText, hSaid⟩ := announced
    rw [hSaid, Option.some.inj (hText.symm.trans hError)]
  · obtain ⟨w, hWorker, hDone⟩ := agrees.exists_worker hMem
    obtain ⟨ending, completedAt, due, rfl⟩ := run.due_of_done hWorker hDone
    have foreseen : Foreseen (jobReport w ending completedAt)
        (.error (.invalidDecisionKey plan.detector.key)) := by
      refine due.foreseen hNotCancelled (fun _ => ⟨_, rfl⟩) fun answer asked => ?_
      cases hFailed.symm.trans asked.ready
    exact foreseen.1

end

/-- A workflow in order may have any key that is not blank, every key that a directory takes among
them. If the directory takes its key, no run of it fails for want of a decision, whoever cancels;
if not, every run that nobody cancels has the detector fail over the key, and with it the gated
jobs. This is so wherever the changed paths are listed and the decision has a place of its own. -/
theorem hindered_iff_key_refused {runId : RunId} {workflow : Workflow} {revisions : Revisions}
    {settings : Settings} {newId : Nat → JobId}
    (hPlan : Plan.make runId workflow revisions settings newId = .ok plan) {files : Files}
    (hFree : files.get? (entryName workflow.changeDetection.decisionKey) = none)
    (surroundings : world.Recordable workflow.changeDetection.decisionKey)
    (run : Runs plan Store.directory world (Progress.start plan, some files) actions c) :
    (∀ key, (workflow.withKey key).check = .ok () ↔ Text.isBlankText key = false) ∧
    (∀ key, isKey key = true → (workflow.withKey key).check = .ok ()) ∧
    (isKey workflow.changeDetection.decisionKey = true → Unhindered c.1) ∧
    (isKey workflow.changeDetection.decisionKey = false → Action.cancel ∉ actions →
      ∀ report, c.1.report? = some report →
        FailedOverKey workflow.changeDetection.decisionKey c.1 report) := by
  obtain ⟨expansion, hCheck, -⟩ := Plan.of_make hPlan
  have hKeyEq : workflow.changeDetection.decisionKey = plan.detector.key := by
    rw [Plan.detector_of_make hPlan]
    rfl
  rw [hKeyEq] at hFree surroundings ⊢
  have hInOrder := fun key => Workflow.check_withKey_iff hCheck key
  exact ⟨hInOrder, fun key hKey => (hInOrder key).mpr (isBlankText_eq_false_of_isKey hKey),
    fun hKey => run.unhindered surroundings hKey hFree,
    fun hKey hUncancelled report hReport =>
      run.failedOverKey surroundings hKey hUncancelled hReport⟩

/-- The sample plan in a directory: its key is taken, and its run comes to a report. -/
theorem sample_unhindered :
    ∃ actions c report,
      Runs samplePlan Store.directory sampleWorld (Progress.start samplePlan, some ∅) actions c ∧
      c.1.report? = some report ∧ Unhindered c.1 := by
  have hPlan : Plan.make ⟨Uuid.ofNat 7⟩ sampleWorkflow ⟨"main", "topic"⟩ { workspace := "." }
      (fun i => ⟨Uuid.ofNat i⟩) = .ok samplePlan := by rfl
  have surroundings : (sampleWorld : World Directory).Recordable
      sampleWorkflow.changeDetection.decisionKey :=
    { listed := fun _ h => ⟨_, h⟩
      spared := fun _ _ _ h => h.elim }
  have hCheck : (replay samplePlan Store.directory sampleSchedule
      (Progress.start samplePlan, some ∅)).any (fun c => c.1.report?.isSome) = true := by
    decide +kernel
  obtain ⟨c, run, hEnd⟩ := Runs.exists_of_replay sampleSchedule_answers hCheck
  obtain ⟨report, hReport⟩ := Option.isSome_iff_exists.mp hEnd
  obtain ⟨-, -, hUnhindered, -⟩ := hindered_iff_key_refused hPlan rfl surroundings run
  exact ⟨_, c, report, run, hReport, hUnhindered (by decide +kernel)⟩

/-- The sample workflow with a blank in the key of its decision. -/
def misnamedWorkflow : Workflow := sampleWorkflow.withKey "a b"

def misnamedPlan : Plan :=
  { samplePlan with
    workflow := misnamedWorkflow
    detector := Detector.ofWorkflow misnamedWorkflow.changeDetection }

/-- A run of its plan: the detector fails before the first job is to start. -/
def misnamedSchedule : List (Action × Moment) :=
  scheduled
    [.advance, .advance, .detect, .listed (.ok ["src/lib"]), .detect, .detect, .detect, .work 0,
      .work 0, .work 0, .work 0, .work 1, .work 1, .work 1, .work 1, .work 1,
      .returned 1 (.ok ⟨0, true⟩), .work 1, .advance, .advance, .advance]

/-- The workflow with the blank is in order, and has a plan. The run of that plan fails over the
key, although the paths are listed and its directory is there: the gated job ends with the
detector. -/
theorem misnamed_run_fails :
    misnamedWorkflow.check = .ok () ∧
    Plan.make ⟨Uuid.ofNat 7⟩ misnamedWorkflow ⟨"main", "topic"⟩ { workspace := "." }
      (fun i => ⟨Uuid.ofNat i⟩) = .ok misnamedPlan ∧
    isKey misnamedWorkflow.changeDetection.decisionKey = false ∧
    ∃ actions c report,
      Runs misnamedPlan Store.directory sampleWorld (Progress.start misnamedPlan, some ∅)
        actions c ∧
      Action.cancel ∉ actions ∧ c.1.report? = some report ∧
      report.detectorError = some (Error.invalidDecisionKey "a b").message ∧
      report.jobs.map (fun r => (r.gated, r.outcome)) =
        [(true, .upstreamFailure), (false, .succeeded)] := by
  have hAnswers : ∀ entry ∈ misnamedSchedule, ∀ p,
      (sampleWorld : World Directory).Answers misnamedPlan p entry.1 := by
    simp [misnamedSchedule, scheduled, World.Answers, sampleWorld, World.fixed]
  have hCheck : (replay misnamedPlan Store.directory misnamedSchedule
      (Progress.start misnamedPlan, some ∅)).any (fun c => c.1.report?.any fun report =>
        report.detectorError = some (Error.invalidDecisionKey "a b").message &&
          report.jobs.map (fun r => (r.gated, r.outcome)) =
            [(true, .upstreamFailure), (false, .succeeded)]) = true := by
    decide +kernel
  obtain ⟨c, run, hEnd⟩ := Runs.exists_of_replay hAnswers hCheck
  obtain ⟨report, hReport, hFails⟩ := (Option.any_eq_true _ _).mp hEnd
  simp only [Bool.and_eq_true, decide_eq_true_eq] at hFails
  exact ⟨rfl, rfl, by decide +kernel, _, c, report, run, by simp [misnamedSchedule, scheduled],
    hReport, hFails.1, hFails.2⟩

end Run

end ChangeGate
