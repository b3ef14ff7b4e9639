import ChangeGate.Proofs.Run.Completion
import ChangeGate.Proofs.Run.Ending
import ChangeGate.Proofs.Run.Replay
import ChangeGate.Proofs.Store.Flag

/-! What a run that nobody cancels reports does not hang on the order of its steps. How a job ends
is settled by its own data: whether it is gated, what the detector returned, what the store answers
afterwards, and what the body of the job returns. Slots, clocks and the bus do not come into it. -/

namespace ChangeGate.Run

open Progress

variable {σ : Type} {plan : Plan} {store : Store σ} {world : World σ} {s₀ : σ}
  {start c : Progress × σ} {actions : List Action} {report : RunReport}

/-- How a job ends whose body has been asked for a result: it has succeeded or failed as the task
has, and has failed without an exit code where the task could not be carried out. -/
def byBody : Except Error TaskResult → Outcome × Option Int × Option String
  | .ok ⟨code, true⟩ => (.succeeded, some code, none)
  | .ok ⟨code, false⟩ => (.failed, some code, some ("task exited with code " ++ toString code))
  | .error e => (.failed, none, some e.message)

/-- How a job ends that nobody cancels: its outcome, exit code and message. -/
def settle (gated : Bool) (detected : Except Error Decision) (flag : Except Error Bool)
    (result : Except Error TaskResult) : Outcome × Option Int × Option String :=
  if gated then
    match detected, flag with
    | .error _, _ => (.upstreamFailure, none, some "change detection failed")
    | .ok _, .error e => (.upstreamFailure, none, some ("decision unavailable: " ++ e.message))
    | .ok _, .ok false => (.skipped, none, some "no relevant changes")
    | .ok _, .ok true => byBody result
  else byBody result

/-- The ending of a body that has returned is the one that its result calls for. -/
theorem byBody_eq (startedAt : Timestamp) (duration : Nat) (result : Except Error TaskResult) :
    ((Ending.ofResult startedAt duration result).outcome,
      (Ending.ofResult startedAt duration result).exitCode,
      (Ending.ofResult startedAt duration result).message) = byBody result := by
  rcases result with e | ⟨code, _ | _⟩ <;> rfl

/-- What a run reports of its detector. -/
def findings : Except Error Decision → Option Decision × Option String
  | .ok decision => (some decision, none)
  | .error e => (none, some e.message)

theorem findings_of_concluded {result : Except Error Decision} {signal : Signal}
    {decision : Option Decision} {error : Option String}
    (h : .ended signal decision error = concluded result) :
    (decision, error) = findings result := by
  cases result <;> cases h <;> rfl

theorem error_of_concluded {result : Except Error Decision}
    (h : (concluded result).signal = .failed) : ∃ e, result = .error e := by
  cases result with
  | ok decision => cases h
  | error e => exact ⟨e, rfl⟩

theorem ok_of_concluded {result : Except Error Decision}
    (h : (concluded result).signal = .ready) : ∃ decision, result = .ok decision := by
  cases result with
  | ok decision => exact ⟨decision, rfl⟩
  | error e => cases h

theorem settle_of_proceed {detected : Except Error Decision} {flag : Except Error Bool}
    {decision : Decision} (gated : Bool) (result : Except Error TaskResult)
    (hDetected : detected = .ok decision) (hFlag : flag = .ok true) :
    settle gated detected flag result = byBody result := by
  subst hDetected hFlag
  cases gated <;> rfl

/-- An ending that has its cause is either that of a cancellation or the settled one, if the
detector and the gate have answered accordingly. -/
theorem Due.settled {w : Worker} {ending : Ending} {detected : Except Error Decision}
    {key : String} {s : σ} {body : TaskContext → Except Error TaskResult}
    (due : Due plan store world start actions c w ending)
    (hBody : ∀ context result, world.body context result → result = body context)
    (hFailed : c.1.detection.signal = .failed → ∃ e, detected = .error e)
    (hAsked : ∀ answer, Asked plan store world start actions c answer →
      (∃ decision, detected = .ok decision) ∧ store.check s key = answer) :
    (c.1.cancelled = true ∧ ending = .cancelled) ∨
      (ending.outcome, ending.exitCode, ending.message) =
        settle w.gated detected (store.getFlag s key) (body (plan.context w.job)) := by
  cases due with
  | cancelled hCancelled => exact .inl ⟨hCancelled, rfl⟩
  | detectionFailed hGated hSignal =>
      obtain ⟨e, rfl⟩ := hFailed hSignal
      rw [hGated]
      exact .inr rfl
  | unavailable hGated asked =>
      obtain ⟨⟨decision, rfl⟩, hCheck⟩ := hAsked _ asked
      rw [hGated, Store.getFlag_of_check_error hCheck]
      exact .inr rfl
  | skipped hGated asked =>
      obtain ⟨⟨decision, rfl⟩, hCheck⟩ := hAsked _ asked
      obtain ⟨b, hFlag, hVerdict⟩ := Store.getFlag_of_check hCheck
      cases b with
      | true => cases hVerdict
      | false =>
          rw [hGated, hFlag]
          exact .inr rfl
  | @returned startedAt duration result cleared answered =>
      right
      rw [← hBody _ _ answered, byBody_eq]
      cases hGated : w.gated with
      | false => rfl
      | true =>
          obtain ⟨⟨decision, hDetected⟩, hCheck⟩ := hAsked _ (cleared hGated)
          obtain ⟨b, hFlag, hVerdict⟩ := Store.getFlag_of_check hCheck
          cases b with
          | false => cases hVerdict
          | true => exact (settle_of_proceed true result hDetected hFlag).symm

section

variable (hFixed : ∀ p s t, world.others p s t →
  (∃ signal decision error, p.detection = .ended signal decision error) →
    store.get t plan.detector.key = store.get s plan.detector.key)

include hFixed

/-- Once the detector has ended, the store goes on answering what it answers. -/
theorem Runs.get_eq (run : Runs plan store world start actions c)
    (hEnded : ∃ signal decision error, start.1.detection = .ended signal decision error) :
    store.get c.2 plan.detector.key = store.get start.2 plan.detector.key := by
  obtain ⟨signal, decision, error, hStart⟩ := hEnded
  induction run with
  | start => rfl
  | @act actions p s c prior action m answers taken ih =>
      have hAt : p.detection = .ended signal decision error := prior.ended_mono hStart
      have hTried : p.detection.tried = true := by rw [hAt]; rfl
      rw [(Change.of_act? taken).store_eq (.inl hTried)]
      exact ih
  | others prior change ih =>
      rw [hFixed _ _ _ change ⟨signal, decision, error, prior.ended_mono hStart⟩]
      exact ih

/-- The gate goes on answering what it has answered. -/
theorem Asked.check_eq {answer : Except Error Verdict}
    (asked : Asked plan store world start actions c answer) :
    store.check c.2 plan.detector.key = answer := by
  obtain ⟨q, t, ⟨before, after, -, -, hAfter⟩, hReady, rfl⟩ := asked
  cases hAt : q.detection with
  | ended signal decision error =>
      have hGet := hAfter.get_eq hFixed ⟨signal, decision, error, hAt⟩
      simp only [Store.check, Store.getFlag, hGet]
  | _ => simp [hAt, Detection.signal] at hReady

end

theorem ByOthers.eq {s t : σ} (hAlone : ∀ p s t, ¬ world.others p s t)
    (hBy : ByOthers world s t) : t = s := by
  induction hBy with
  | refl => rfl
  | tail _ change ih =>
      obtain ⟨p, change⟩ := change
      exact absurd change (hAlone _ _ _)

/-- What every run reports that nobody cancels, whatever the order of its steps, the number of
slots, the clocks and the bus, and whatever others do to the store until the detector has ended: its
decision is what the detector returned, and each job ended as its own data settle it. If nobody else
touches the store, the detector met the store as it was at the start, and all of this is settled
before the run. -/
theorem report_independent_of_schedule {diff : Except Error (List String)}
    {body : TaskContext → Except Error TaskResult}
    (hDiff : ∀ paths, world.listing paths → paths = diff)
    (hBody : ∀ context result, world.body context result → result = body context)
    (hFixed : ∀ p s t, world.others p s t →
      (∃ signal decision error, p.detection = .ended signal decision error) →
        store.get t plan.detector.key = store.get s plan.detector.key)
    (run : Runs plan store world (Progress.start plan, s₀) actions c)
    (hUncancelled : Action.cancel ∉ actions) (hReport : c.1.report? = some report) :
    ∃ t, ByOthers world s₀ t ∧ ByOthers world (plan.detector.detect store t diff).2 c.2 ∧
      ((∀ p s t, ¬ world.others p s t) → t = s₀ ∧ c.2 = (plan.detector.detect store s₀ diff).2) ∧
      (report.decision, report.detectorError) = findings (plan.detector.detect store t diff).1 ∧
      report.jobs.map (fun r => (r.gated, r.outcome, r.exitCode, r.message)) =
        plan.graph.jobs.map fun job =>
          (plan.isGated job, settle (plan.isGated job) (plan.detector.detect store t diff).1
            (store.getFlag c.2 plan.detector.key) (body (plan.context job))) := by
  have hCancelled : c.1.cancelled ≠ true := fun h => hUncancelled ((run.cancelled_iff rfl).mp h)
  have agrees := run.agrees_of_report? hReport
  obtain ⟨signal, hEnded⟩ := agrees.ended
  have found := run.found
  rw [hEnded] at found
  obtain ⟨result, diff', q, t, detected, hConcluded⟩ :=
    found.concluded.resolve_left fun h => hCancelled h.1
  obtain rfl := hDiff _ detected.answered
  obtain rfl := detected.result_eq
  have hDetection : c.1.detection = concluded (plan.detector.detect store t diff').1 :=
    hEnded.trans hConcluded
  have hFailed : c.1.detection.signal = .failed →
      ∃ e, (plan.detector.detect store t diff').1 = .error e := by
    rw [hDetection]
    exact error_of_concluded
  have hAsked : ∀ answer, Asked plan store world (Progress.start plan, s₀) actions c answer →
      (∃ decision, (plan.detector.detect store t diff').1 = .ok decision) ∧
        store.check c.2 plan.detector.key = answer := by
    intro answer asked
    have hReady := asked.ready
    rw [hDetection] at hReady
    exact ⟨ok_of_concluded hReady, asked.check_eq hFixed⟩
  refine ⟨t, detected.byOthers_before, detected.byOthers_after, ?_,
    findings_of_concluded hConcluded, ?_⟩
  · intro hAlone
    obtain rfl := detected.byOthers_before.eq hAlone
    exact ⟨rfl, detected.byOthers_after.eq hAlone⟩
  · refine (run.map_reports agrees fun w hMem r hGated hDone => ?_).symm
    obtain ⟨ending, completedAt, due, rfl⟩ := run.due_of_done hMem hDone
    rcases due.settled hBody hFailed hAsked with ⟨h, -⟩ | hSettled
    · exact absurd h hCancelled
    · rw [← hGated, ← hSettled]
      rfl

/-- The sample workflow with a third job, which waits for the decision as the first one does. -/
def threeJobs : Workflow :=
  { sampleWorkflow with
    matrix :=
      { axes := Table.ofList [("os", ["a", "b", "c"])]
        instances :=
          sampleWorkflow.matrix.instances ++ [{ parameters := Table.ofList [("os", "c")] }]
        maxParallel := some 1 } }

/-- The plan of the workflow. -/
def threeJobsPlan : Plan :=
  { samplePlan with
    workflow := threeJobs
    graph :=
      { jobs := samplePlan.graph.jobs ++
          [⟨⟨Uuid.ofNat 2⟩, 2, "build (os=c)", Table.ofList [("os", "c")], false⟩]
        policy := .respectAlwaysRun
        jobs_ne_nil := by simp
        nodup_ids := by decide } }

/-- The first job fails, the second one cannot be carried out, and the third one succeeds. -/
def unequalBody (context : TaskContext) : Except Error TaskResult :=
  if context.name = "build (os=a)" then .ok ⟨3, false⟩
  else if context.name = "build (os=b)" then .error (.taskTimeout 1800)
  else .ok ⟨0, true⟩

/-- A world in which there is a relevant change and bodies end like that. -/
def unequalWorld : World (Table Json) := .fixed (.ok ["src/lib"]) unequalBody

/-- A run of the plan in that world: the sample run, and the third job after the first one. -/
def unequalSchedule : List (Action × Moment) :=
  scheduled
    [.advance, .advance, .detect, .work 0, .work 1, .work 2, .work 0, .work 1, .work 1, .work 1,
      .work 1, .listed (.ok ["src/lib"]), .detect, .returned 1 (.error (.taskTimeout 1800)),
      .detect, .work 1, .detect, .work 0, .work 0, .work 0, .work 0, .work 0, .work 0,
      .returned 0 (.ok ⟨3, false⟩), .work 0, .work 2, .work 2, .work 2, .work 2, .work 2, .work 2,
      .work 2, .returned 2 (.ok ⟨0, true⟩), .work 2, .advance, .advance, .advance]

/-- Three jobs in a run of one order: each ends by what its own body returns. -/
theorem sample_report_settled :
    ∃ c actions report,
      Runs threeJobsPlan Store.memory unequalWorld (Progress.start threeJobsPlan, ∅) actions c ∧
      c.1.report? = some report ∧
      report.jobs.map (fun r => (r.gated, r.outcome, r.exitCode, r.message)) =
        [(true, .failed, some 3, some "task exited with code 3"),
          (false, .failed, none, some "Task timeout after 1800 seconds"),
          (true, .succeeded, some 0, none)] := by
  have hCheck : (replay threeJobsPlan Store.memory unequalSchedule
      (Progress.start threeJobsPlan, ∅)).any (fun c => c.1.report?.isSome) = true := by decide
  have hAnswers : ∀ actions c,
      Runs threeJobsPlan Store.memory unequalWorld (Progress.start threeJobsPlan, ∅) actions c →
        ∀ entry ∈ unequalSchedule, unequalWorld.Answers threeJobsPlan c.1 entry.1 := by
    intro actions c run
    have first : unequalWorld.Answers threeJobsPlan c.1 (.returned 0 (.ok ⟨3, false⟩)) :=
      run.answers_returned rfl rfl
    have second : unequalWorld.Answers threeJobsPlan c.1
        (.returned 1 (.error (.taskTimeout 1800))) := run.answers_returned rfl rfl
    have third : unequalWorld.Answers threeJobsPlan c.1 (.returned 2 (.ok ⟨0, true⟩)) :=
      run.answers_returned rfl rfl
    simpa [unequalSchedule, scheduled, World.Answers, unequalWorld, World.fixed] using
      ⟨second, first, third⟩
  obtain ⟨c, hPlays, hEnd⟩ := (Option.any_eq_true _ _).mp hCheck
  have run := Runs.start.play hAnswers hPlays
  obtain ⟨report, hReport⟩ := Option.isSome_iff_exists.mp hEnd
  have hAlone : ∀ p s t, ¬ unequalWorld.others p s t := fun _ _ _ h => h
  obtain ⟨t, -, -, hAt, -, hJobs⟩ := report_independent_of_schedule (fun _ h => h) (fun _ _ h => h)
    (fun p s t h => absurd h (hAlone p s t)) run (by simp [unequalSchedule, scheduled]) hReport
  obtain ⟨rfl, hEnd⟩ := hAt hAlone
  refine ⟨c, _, report, run, hReport, ?_⟩
  rw [hJobs, hEnd]
  rfl

end ChangeGate.Run
