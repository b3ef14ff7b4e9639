import ChangeGate.Proofs.Run.Independence

/-! What a run comes to that nobody cancels and whose decision can be kept: others may do to its
directory what they like, as long as they leave it there and keep away from the file of the
decision. Then the run decides as its detector judges the listed paths, and which of its jobs are
skipped, or fail with the detector, is settled by that judgement and by which of them are gated. -/

namespace ChangeGate

theorem Verdict.ofChanges_eq_skip {b : Bool} : ofChanges b = .skip ↔ b = false := by
  cases b <;> decide

theorem Verdict.ofChanges_eq_proceed {b : Bool} : ofChanges b = .proceed ↔ b = true := by
  cases b <;> decide

namespace Directory

/-- Nobody has removed the directory or made a change to the file of a key. -/
def Spares (key : String) (s t : Directory) : Prop :=
  t.isSome = s.isSome ∧ t.bind (·.get? (entryName key)) = s.bind (·.get? (entryName key))

variable {key : String} {s t u : Directory}

theorem Spares.refl (s : Directory) : Spares key s s := ⟨rfl, rfl⟩

theorem Spares.trans (first : Spares key s t) (second : Spares key t u) : Spares key s u :=
  ⟨second.1.trans first.1, second.2.trans first.2⟩

theorem Spares.get_eq (spares : Spares key s t) : get t key = get s key := by
  simp only [get, spares.2]

/-- Where a directory is there and has no file of a key, a flag can be written under it. -/
theorem putFlag_of_spared {files : Files} (hKey : isKey key = true)
    (hFree : files.get? (entryName key) = none) (spares : Spares key (some files) t) (b : Bool) :
    (Store.directory.putFlag t key b).1 = .ok () := by
  obtain ⟨hThere, hEntry⟩ := spares
  obtain ⟨files', rfl⟩ := Option.isSome_iff_exists.mp hThere
  have hAbsent : files'.get? (entryName key) = none := hEntry.trans hFree
  simp [Store.putFlag, Store.directory, put_some _ _ _ hKey, Table.contains, hAbsent]

end Directory

namespace Run

open Progress Directory

variable {plan : Plan} {world : World Directory} {start c : Progress × Directory}
  {actions : List Action} {report : RunReport}

theorem ByOthers.spares {key : String} {s t : Directory}
    (hOthers : ∀ p s t, world.others p s t → Spares key s t) (hBy : ByOthers world s t) :
    Spares key s t := by
  induction hBy with
  | refl => exact .refl s
  | tail _ change ih =>
      obtain ⟨p, change⟩ := change
      exact ih.trans (hOthers p _ _ change)

/-- How a job ends, as far as the judgement on the listed paths settles it. -/
def Foreseen (r : JobReport) : Except Error Decision → Prop
  | .ok decision =>
      (r.outcome = .skipped ↔ r.gated = true ∧ decision.changesDetected = false) ∧
        r.outcome ≠ .upstreamFailure
  | .error _ => (r.outcome = .upstreamFailure ↔ r.gated = true) ∧ r.outcome ≠ .skipped

/-- A job ends as foreseen if the detector has ended with what it judged, and the gate goes by
that. -/
theorem Due.foreseen {σ : Type} {store : Store σ} {world : World σ} {start c : Progress × σ}
    {w : Worker} {ending : Ending} {judged : Except Error Decision} {completedAt : Timestamp}
    (due : Due plan store world start actions c w ending) (hUncancelled : c.1.cancelled ≠ true)
    (hFailed : c.1.detection.signal = .failed → ∃ e, judged = .error e)
    (hAsked : ∀ answer, Asked plan store world start actions c answer →
      ∃ decision, judged = .ok decision ∧
        answer = .ok (Verdict.ofChanges decision.changesDetected)) :
    Foreseen (jobReport w ending completedAt) judged := by
  cases due with
  | cancelled hCancelled => exact absurd hCancelled hUncancelled
  | detectionFailed hGated hSignal =>
      obtain ⟨e, rfl⟩ := hFailed hSignal
      exact ⟨iff_of_true rfl hGated, nofun⟩
  | unavailable hGated asked =>
      obtain ⟨decision, -, hAnswer⟩ := hAsked _ asked
      cases hAnswer
  | skipped hGated asked =>
      obtain ⟨decision, rfl, hAnswer⟩ := hAsked _ asked
      have hNone := Verdict.ofChanges_eq_skip.mp (Except.ok.inj hAnswer).symm
      exact ⟨iff_of_true rfl ⟨hGated, hNone⟩, nofun⟩
  | @returned startedAt duration result cleared answered =>
      have hRan : (jobReport w (.ofResult startedAt duration result) completedAt).outcome ≠
            .skipped ∧
          (jobReport w (.ofResult startedAt duration result) completedAt).outcome ≠
            .upstreamFailure := by
        rcases outcome_of_verdict result with h | h <;> simp [jobReport, h]
      cases judged with
      | error e =>
          refine ⟨iff_of_false hRan.2 fun hGated => ?_, hRan.1⟩
          obtain ⟨_, hOk, -⟩ := hAsked _ (cleared hGated)
          cases hOk
      | ok d =>
          refine ⟨iff_of_false hRan.1 fun ⟨hGated, hNone⟩ => ?_, hRan.2⟩
          obtain ⟨_, ⟨⟩, hAnswer⟩ := hAsked _ (cleared hGated)
          have hSome := Verdict.ofChanges_eq_proceed.mp (Except.ok.inj hAnswer).symm
          cases hSome.symm.trans hNone

section

variable {files : Files} {diff : Except Error (List String)}
  (hKey : isKey plan.detector.key = true)
  (hFree : files.get? (entryName plan.detector.key) = none)
  (hListing : ∀ paths, world.listing paths → paths = diff)
  (hOthers : ∀ p s t, world.others p s t → Spares plan.detector.key s t)
  (run : Runs plan Store.directory world (Progress.start plan, some files) actions c)
  (hUncancelled : Action.cancel ∉ actions)

include hKey hFree hListing hOthers run hUncancelled

/-- The detector ends with what it judges, and has written it where there is a decision. -/
theorem Runs.detection_of_spared {signal : Signal} {decision : Option Decision}
    {error : Option String} (hEnded : c.1.detection = .ended signal decision error) :
    c.1.detection = concluded (plan.detector.evaluate diff) ∧
      ∀ d, plan.detector.evaluate diff = .ok d →
        Store.directory.check c.2 plan.detector.key =
          .ok (Verdict.ofChanges d.changesDetected) := by
  have found := run.found
  rw [hEnded] at found
  obtain ⟨result, diff', q, t, detected, hConcluded⟩ :=
    found.concluded.resolve_left fun h => hUncancelled ((run.cancelled_iff rfl).mp h.1)
  obtain rfl := hListing _ detected.answered
  have hBefore := detected.byOthers_before.spares hOthers
  have hAfter := detected.byOthers_after.spares hOthers
  have hResult := detected.result_eq
  rw [hEnded, hConcluded]
  cases hJudged : plan.detector.evaluate diff' with
  | error e =>
      rw [detect_of_evaluate_error _ _ hJudged] at hResult
      exact ⟨congrArg concluded hResult.symm, nofun⟩
  | ok d =>
      rw [detect_of_evaluate_ok _ _ hJudged] at hResult hAfter
      have hPut := putFlag_of_spared hKey hFree hBefore d.changesDetected
      rw [hPut] at hResult
      refine ⟨congrArg concluded hResult.symm, ?_⟩
      rintro _ ⟨⟩
      have hFlag := (@Store.directory_keepsFlag (fun _ _ => False) plan.detector.key
        fun _ _ => id).getFlag_put hPut
      refine Store.check_of_getFlag ?_
      rw [Store.getFlag, show Store.directory.get = get from rfl, hAfter.get_eq]
      exact hFlag

/-- The run decides as its detector judges, and each of its jobs ends as foreseen. -/
theorem Runs.foreseen (hReport : c.1.report? = some report) :
    (report.decision, report.detectorError) = findings (plan.detector.evaluate diff) ∧
      ∀ r ∈ report.jobs, Foreseen r (plan.detector.evaluate diff) := by
  have agrees := run.agrees_of_report? hReport
  obtain ⟨signal, hEnded⟩ := agrees.ended
  obtain ⟨hDetection, hCheck⟩ :=
    run.detection_of_spared hKey hFree hListing hOthers hUncancelled hEnded
  refine ⟨findings_of_concluded (hEnded.symm.trans hDetection), fun r hMem => ?_⟩
  obtain ⟨w, hWorker, hDone⟩ := agrees.exists_worker hMem
  obtain ⟨ending, completedAt, due, rfl⟩ := run.due_of_done hWorker hDone
  refine due.foreseen (fun h => hUncancelled ((run.cancelled_iff rfl).mp h)) ?_ ?_
  · rw [hDetection]
    exact error_of_concluded
  · intro answer asked
    have hReady := asked.ready
    rw [hDetection] at hReady
    obtain ⟨d, hJudged⟩ := ok_of_concluded hReady
    have hFixed : ∀ p s t, world.others p s t →
        (∃ signal decision error, p.detection = .ended signal decision error) →
          Store.directory.get t plan.detector.key = Store.directory.get s plan.detector.key :=
      fun p s t change _ => (hOthers p s t change).get_eq
    exact ⟨d, hJudged, (asked.check_eq hFixed).symm.trans (hCheck d hJudged)⟩

end

/-- What is known of a job before it is run is in its report, and the reports come in the order of
the jobs. -/
theorem Runs.jobs_reported {σ : Type} {store : Store σ} {world : World σ} {s₀ : σ}
    {c : Progress × σ} (run : Runs plan store world (Progress.start plan, s₀) actions c)
    (hReport : c.1.report? = some report) :
    plan.graph.jobs.map (fun job => (job.index, job.name, plan.isGated job)) =
      report.jobs.map fun r => (r.index, r.name, r.gated) := by
  refine run.map_reports (run.agrees_of_report? hReport) fun w hMem r hGated hDone => ?_
  obtain ⟨ending, completedAt, -, rfl⟩ := run.due_of_done hMem hDone
  rw [← hGated]
  rfl

end Run

end ChangeGate
