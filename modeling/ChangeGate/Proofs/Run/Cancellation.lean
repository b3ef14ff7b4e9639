import Mathlib.Data.List.Forall2
import ChangeGate.Proofs.Run.Gate
import ChangeGate.Proofs.Run.Independence

/-! A request to cancel only removes work. In a world that answers in one way, a run that is
cancelled at any moment is compared with one that is not: every job is cancelled or ends as it would
have ended, a body that has started counts for what it returns, and none starts once the worker has
seen the request. -/

namespace ChangeGate.Run

open Progress

variable {σ : Type} {plan : Plan} {store : Store σ} {world : World σ} {s₀ : σ}
  {diff : Except Error (List String)} {body : TaskContext → Except Error TaskResult}
  {start b c c' : Progress × σ} {actions actions' : List Action} {report report' : RunReport}

/-- Whether a worker will look once more whether the run is cancelled, before its body starts. -/
def Stage.looksAgain : Stage → Bool
  | .scheduled => true
  | .waiting => true
  | .listening => true
  | .atGate => true
  | .queued => true
  | .claiming => true
  | .admitted => true
  | _ => false

/-- Where a worker stands whose body has not started and will not start once the run is cancelled.
-/
def Stage.keptOut : Stage → Bool
  | .finishing ending _ => ending.startedAt.isNone
  | .done report => report.startedAt.isNone
  | stage => stage.looksAgain

/-- Where a worker stands whose body has started, if the body returns a certain result. -/
def Stage.Entered (result : Except Error TaskResult) : Stage → Prop
  | .starting => True
  | .running .. => True
  | .finishing ending _ => ∃ startedAt duration, ending = .ofResult startedAt duration result
  | .done report => (report.outcome, report.exitCode, report.message) = Ending.verdict result
  | _ => False

theorem WorkerMove.keptOut {m : Moment} {p : Progress} {s : σ} {i : Nat} {w : Worker}
    {action : Action} {t : Turn} (move : WorkerMove plan store m p s i w action t)
    (hCancelled : p.cancelled = true) (h : w.stage.keptOut = true) : t.stage.keptOut = true := by
  cases move with
  | start hAt hGoesOn => rw [hCancelled] at hGoesOn; cases hGoesOn
  | enter hAt => rw [hAt] at h; cases h
  | leave hAt => rw [hAt] at h; cases h
  | finish hAt => rw [hAt] at h; exact h
  | _ => rfl

theorem WorkerMove.entered {m : Moment} {p : Progress} {s : σ} {i : Nat} {w : Worker}
    {action : Action} {t : Turn} {result : Except Error TaskResult}
    (move : WorkerMove plan store m p s i w action t)
    (hResult : ∀ result', action = .returned i result' → result' = result)
    (h : w.stage.Entered result) : t.stage.Entered result := by
  cases move with
  | enter hAt => trivial
  | leave hAt => exact ⟨_, _, by rw [hResult _ rfl]⟩
  | finish hAt =>
      rw [hAt] at h
      obtain ⟨startedAt, duration, rfl⟩ := h
      rfl
  | cancel hAt hCancelled =>
      generalize w.stage = stage at h hAt
      cases hAt <;> cases h
  | wait hAt => rw [hAt] at h; cases h
  | bypass hAt => rw [hAt] at h; cases h
  | listen hAt => rw [hAt] at h; cases h
  | reach hAt => rw [hAt] at h; cases h
  | lose hAt => rw [hAt] at h; cases h
  | heed hAt => rw [hAt] at h; cases h
  | proceed hAt => rw [hAt] at h; cases h
  | skip hAt => rw [hAt] at h; cases h
  | miss hAt => rw [hAt] at h; cases h
  | unlimited hAt => rw [hAt] at h; cases h
  | claim hAt => rw [hAt] at h; cases h
  | secure hAt => rw [hAt] at h; cases h
  | withdraw hAt => rw [hAt] at h; cases h
  | start hAt => trivial

theorem ByOthers.eq_of_fixed {s t : σ} (hBy : ByOthers (.fixed diff body) s t) : t = s :=
  hBy.eq fun _ _ _ h => h

/-- In a world that answers in one way, what the detector returned is settled beforehand. -/
theorem Detected.of_fixed {result : Except Error Decision} {diff' : Except Error (List String)}
    {p₀ q : Progress} {t : σ}
    (detected : Detected plan store (.fixed diff body) (p₀, s₀) actions c result diff' q t) :
    result = (plan.detector.detect store s₀ diff).1 ∧
      c.2 = (plan.detector.detect store s₀ diff).2 := by
  obtain rfl : diff' = diff := detected.answered
  obtain rfl : t = s₀ := detected.byOthers_before.eq_of_fixed
  exact ⟨detected.result_eq.symm, detected.byOthers_after.eq_of_fixed⟩

/-- In such a world the detector ends cancelled, or as it would have. -/
theorem Runs.detection_of_fixed
    (run : Runs plan store (.fixed diff body) (Progress.start plan, s₀) actions c)
    {signal : Signal} {decision : Option Decision} {error : Option String}
    (hEnded : c.1.detection = .ended signal decision error) :
    (c.1.cancelled = true ∧ decision = none ∧ signal = .cancelled) ∨
      (Detection.ended signal decision error =
        concluded (plan.detector.detect store s₀ diff).1 ∧
      c.2 = (plan.detector.detect store s₀ diff).2) := by
  have found := run.found
  rw [hEnded] at found
  rcases found.concluded with ⟨hCancelled, hEq⟩ | ⟨result, diff', q, t, detected, hEq⟩
  · cases hEq
    exact .inl ⟨hCancelled, rfl, rfl⟩
  · obtain ⟨rfl, hState⟩ := detected.of_fixed
    exact .inr ⟨hEq, hState⟩

/-- In such a world each job ends cancelled, in a run that is, or as its data settle it. -/
theorem Runs.settled_of_fixed
    (run : Runs plan store (.fixed diff body) (Progress.start plan, s₀) actions c) {w : Worker}
    (hMem : w ∈ c.1.workers) {r : JobReport} (hDone : w.stage = .done r) :
    (c.1.cancelled = true ∧ r.outcome = .cancelled ∧ r.startedAt = none) ∨
      (r.outcome, r.exitCode, r.message) =
        settle w.gated (plan.detector.detect store s₀ diff).1
          (store.getFlag (plan.detector.detect store s₀ diff).2 plan.detector.key)
          (body (plan.context w.job)) := by
  obtain ⟨ending, completedAt, due, rfl⟩ := run.due_of_done hMem hDone
  have hFailed : c.1.detection.signal = .failed →
      ∃ e, (plan.detector.detect store s₀ diff).1 = .error e := by
    intro hSignal
    cases hAt : c.1.detection with
    | ended signal decision error =>
        rw [hAt] at hSignal
        cases hSignal
        rcases run.detection_of_fixed hAt with ⟨-, -, h⟩ | ⟨hEq, -⟩
        · cases h
        · exact error_of_concluded (by rw [← hEq]; rfl)
    | _ => simp [hAt, Detection.signal] at hSignal
  have hAsked : ∀ answer,
      Asked plan store (.fixed diff body) (Progress.start plan, s₀) actions c answer →
      (∃ decision, (plan.detector.detect store s₀ diff).1 = .ok decision) ∧
        store.check (plan.detector.detect store s₀ diff).2 plan.detector.key = answer := by
    rintro answer ⟨q, t, passed, hReady, hAnswer⟩
    obtain ⟨before, hBefore, -⟩ := passed.extends
    cases hAt : q.detection with
    | ended signal decision error =>
        rw [hAt] at hReady
        cases hReady
        rcases hBefore.detection_of_fixed hAt with ⟨-, -, h⟩ | ⟨hEq, rfl⟩
        · cases h
        · exact ⟨ok_of_concluded (by rw [← hEq]; rfl), hAnswer⟩
    | _ => simp [hAt, Detection.signal] at hReady
  rcases due.settled (fun _ _ h => h) hFailed hAsked with ⟨hCancelled, rfl⟩ | hSettled
  · exact .inl ⟨hCancelled, rfl, rfl⟩
  · exact .inr hSettled

/-- A job is reported as cancelled only in a run that is. -/
theorem Runs.cancelled_of_report
    (run : Runs plan store world (Progress.start plan, s₀) actions c)
    (agrees : Agrees plan c.1 report) {r : JobReport} (hMem : r ∈ report.jobs)
    (hOutcome : r.outcome = .cancelled) : c.1.cancelled = true := by
  obtain ⟨w, hWorker, hDone⟩ := agrees.exists_worker hMem
  obtain ⟨ending, completedAt, due, rfl⟩ := run.due_of_done hWorker hDone
  exact due.cancellation hOutcome

/-- A run in which a job was cancelled says so before it ends. -/
theorem Runs.cancellation_said
    (run : Runs plan store world (Progress.start plan, s₀) actions c) :
    ∀ report, c.1.phase = .closing report ∨ c.1.phase = .completed report →
      ∀ r ∈ report.jobs, r.outcome = .cancelled → .runCancelled report.completedAt ∈ c.1.said := by
  induction run with
  | start => rintro report (h | h) <;> cases h
  | others prior change ih => exact ih
  | @act actions p s c prior action m answers taken ih =>
      intro report hPhase r hMem hOutcome
      cases Change.of_act? taken with
      | advanced move =>
          cases move with
          | begin hAt => rcases hPhase with h | h <;> cases h
          | expand hAt hNext => rcases hNext with rfl | rfl <;> rcases hPhase with h | h <;> cases h
          | join hAt hEnded hDone => rcases hPhase with h | h <;> cases h
          | close hAt =>
              rcases hPhase with h | h <;> cases h
              have agrees := prior.agrees report (by rw [hAt]; rfl)
              have hCancelled : p.cancelled = true :=
                prior.cancelled_of_report agrees hMem hOutcome
              rw [said_tell, if_pos hCancelled]
              simp
          | complete hAt =>
              rcases hPhase with h | h <;> cases h
              rw [said_tell]
              exact List.mem_append_left _ (ih report (.inl hAt) r hMem hOutcome)
      | cancelled hCancelled => exact ih report hPhase r hMem hOutcome
      | found hActive move =>
          rw [phase_find, hActive] at hPhase
          rcases hPhase with h | h <;> cases h
      | turned hActive hWorker move =>
          rw [phase_take, hActive] at hPhase
          rcases hPhase with h | h <;> cases h

/-- A run that was cancelled before it began: the detector looks for nothing, no body starts, and
the store stays as it was. -/
structure Barred (s₀ : σ) (c : Progress × σ) : Prop where
  cancelled : c.1.cancelled = true
  store_eq : c.2 = s₀
  detection : c.1.detection = .idle ∨ c.1.detection = .ended .cancelled none (some "cancelled")
  workers : ∀ w ∈ c.1.workers, w.stage = .scheduled ∨
    (∃ holdsSlot, w.stage = .finishing .cancelled holdsSlot) ∨
      ∃ r, w.stage = .done r ∧ r.outcome = .cancelled

theorem Barred.not_inBody {w : Worker} (barred : Barred s₀ c) (hMem : w ∈ c.1.workers) :
    w.stage.inBody = false := by
  rcases barred.workers w hMem with h | ⟨holdsSlot, h⟩ | ⟨r, h, -⟩ <;> rw [h] <;> rfl

theorem Barred.not_listing (barred : Barred s₀ c) : c.1.detection ≠ .listing := by
  rcases barred.detection with h | h <;> rw [h] <;> nofun

/-- The workers of a barred run can only go to be cancelled. -/
theorem WorkerMove.barred {m : Moment} {p : Progress} {s : σ} {i : Nat} {w : Worker}
    {action : Action} {t : Turn} (move : WorkerMove plan store m p s i w action t)
    (hCancelled : p.cancelled = true)
    (h : w.stage = .scheduled ∨ (∃ holdsSlot, w.stage = .finishing .cancelled holdsSlot) ∨
      ∃ r, w.stage = .done r ∧ r.outcome = .cancelled) :
    t.stage = .scheduled ∨ (∃ holdsSlot, t.stage = .finishing .cancelled holdsSlot) ∨
      ∃ r, t.stage = .done r ∧ r.outcome = .cancelled := by
  cases move with
  | cancel hAt hCancelled => exact .inr (.inl ⟨_, rfl⟩)
  | withdraw hAt hCancelled => exact .inr (.inl ⟨_, rfl⟩)
  | wait hAt hGated hGoesOn => simp [hCancelled] at hGoesOn
  | bypass hAt hGated hGoesOn => simp [hCancelled] at hGoesOn
  | finish hAt =>
      rcases h with h | ⟨holdsSlot, h⟩ | ⟨r, h, -⟩ <;> rw [hAt] at h <;> cases h
      exact .inr (.inr ⟨_, rfl, rfl⟩)
  | listen hAt hGoesOn => simp [hAt] at h
  | reach hAt hReady => simp [hAt] at h
  | lose hAt hFailed => simp [hAt] at h
  | heed hAt hGivenUp => simp [hAt] at h
  | proceed hAt hAnswer => simp [hAt] at h
  | skip hAt hAnswer => simp [hAt] at h
  | miss hAt hAnswer => simp [hAt] at h
  | unlimited hAt hFree => simp [hAt] at h
  | claim hAt hGoesOn => simp [hAt] at h
  | secure hAt hFree => simp [hAt] at h
  | start hAt hGoesOn => simp [hAt] at h
  | enter hAt => simp [hAt] at h
  | leave hAt => simp [hAt] at h

theorem Change.barred {m : Moment} {p : Progress} {s : σ} {action : Action}
    (change : Change plan store m p s action c) (barred : Barred s₀ (p, s)) : Barred s₀ c := by
  have hCancelled : p.cancelled = true := barred.cancelled
  cases change with
  | advanced move => cases move <;> exact { barred with }
  | cancelled hGoesOn => exact { barred with cancelled := rfl }
  | turned hActive hWorker move =>
      refine { barred with workers := fun w' hMem => ?_ }
      rcases mem_of_take hWorker hMem with rfl | hMem
      · exact move.barred hCancelled (barred.workers _ (List.mem_of_getElem? hWorker))
      · exact barred.workers w' hMem
  | found hActive move =>
      have hAt := barred.detection
      cases move with
      | stop hIdle hGivenUp => exact { barred with detection := .inr rfl }
      | list hIdle hGoesOn => simp [hCancelled] at hGoesOn
      | giveUp hGivenUp hPoint =>
          rcases hPoint with ⟨h, -⟩ | ⟨decision, h, -⟩ <;> simp [h] at hAt
      | judge h => simp [h] at hAt
      | write h => simp [h] at hAt
      | pass h => simp [h] at hAt
      | announce h => simp [h] at hAt
      | announceError h => simp [h] at hAt
      | release h => simp [h] at hAt
      | fail h => simp [h] at hAt

/-- A run whose first action is a request to cancel is barred from then on. -/
theorem Runs.barred (run : Runs plan store (.fixed diff body) (Progress.start plan, s₀) actions c) :
    (actions = [] → c = (Progress.start plan, s₀)) ∧
      (actions.head? = some .cancel → Barred s₀ c) := by
  induction run with
  | start => exact ⟨fun _ => rfl, nofun⟩
  | others prior change ih => exact change.elim
  | @act actions p s c prior action m answers taken ih =>
      refine ⟨by simp, fun hFirst => ?_⟩
      have change := Change.of_act? taken
      cases actions with
      | nil =>
          cases ih.1 rfl
          obtain rfl : action = .cancel := by simpa using hFirst
          cases change with
          | cancelled hCancelled =>
              refine ⟨rfl, rfl, .inl rfl, fun w hMem => .inl ?_⟩
              obtain ⟨job, -, rfl⟩ := List.mem_map.mp hMem
              rfl
          | found hActive move => cases move
          | turned hActive hWorker move => cases move
      | cons first rest => exact change.barred (ih.2 (by simpa using hFirst))

theorem Runs.silent_of_barred
    (run : Runs plan store (.fixed diff body) (Progress.start plan, s₀) actions c)
    (hFirst : actions.head? = some .cancel)
    (passed : Passes plan store (.fixed diff body) (Progress.start plan, s₀) actions c b) :
    b.1.detection ≠ .listing ∧ ∀ w ∈ b.1.workers, w.stage.inBody = false := by
  obtain ⟨before, after, rfl, hBefore, -⟩ := passed
  cases before with
  | nil =>
      cases hBefore.barred.1 rfl
      refine ⟨nofun, fun w hMem => ?_⟩
      obtain ⟨job, -, rfl⟩ := List.mem_map.mp hMem
      rfl
  | cons first rest =>
      have barred := hBefore.barred.2 (by simpa using hFirst)
      exact ⟨barred.not_listing, fun w hMem => barred.not_inBody hMem⟩

/-- A body that has started counts for what it returns. -/
theorem Runs.verdict_of_inBody
    (run : Runs plan store (.fixed diff body) b actions c) (agrees : Agrees plan c.1 report)
    {i : Nat} {w : Worker} (hWorker : b.1.workers[i]? = some w) (hBody : w.stage.inBody = true) :
    ∃ r, report.jobs[i]? = some r ∧ r.outcome ≠ .cancelled ∧
      (r.outcome, r.exitCode, r.message) = Ending.verdict (body (plan.context w.job)) := by
  have hStart : w.stage.Entered (body (plan.context w.job)) := by
    cases hAt : w.stage with
    | starting => trivial
    | running => trivial
    | _ => rw [hAt] at hBody; cases hBody
  obtain ⟨w', hWorker', hJob, hEntered⟩ := run.worker_kept
    (P := fun v => v.job = w.job ∧ v.stage.Entered (body (plan.context w.job)))
    (fun _ hMoved answers move ⟨hJob, h⟩ => ⟨hJob, move.entered
      (by rintro result rfl; exact hJob ▸ answers _ hMoved) h⟩) hWorker ⟨rfl, hStart⟩
  obtain ⟨r, hDone, hReport⟩ := agrees.report_of_worker hWorker'
  rw [hDone] at hEntered
  refine ⟨r, hReport, fun hOutcome => ?_, hEntered⟩
  have hVerdict : r.outcome = (Ending.verdict (body (plan.context w.job))).1 :=
    congrArg Prod.fst hEntered
  rcases outcome_of_verdict (body (plan.context w.job)) with h | h <;>
    rw [h, hOutcome] at hVerdict <;>
    cases hVerdict

theorem Stage.keptOut_of_looksAgain {stage : Stage} (h : stage.looksAgain = true) :
    stage.keptOut = true := by
  cases stage <;> simp_all [Stage.looksAgain, Stage.keptOut]

theorem Stage.inBody_of_keptOut {stage : Stage} (h : stage.keptOut = true) :
    stage.inBody = false := by
  cases stage <;> simp_all [Stage.looksAgain, Stage.keptOut, Stage.inBody]

/-- A body that has not started when the run is cancelled, with its last look still to come, does
not start. -/
theorem Runs.keptOut_of_cancelled (run : Runs plan store world b actions c)
    (hCancelled : b.1.cancelled = true) {i : Nat} {w : Worker}
    (hWorker : b.1.workers[i]? = some w) (hLooks : w.stage.looksAgain = true) :
    ∃ w', c.1.workers[i]? = some w' ∧ w'.stage.keptOut = true :=
  run.worker_kept (P := fun v => v.stage.keptOut = true)
    (fun hMono _ _ move h => move.keptOut (hMono hCancelled) h) hWorker
    (Stage.keptOut_of_looksAgain hLooks)

/-- What a run that may be cancelled has in common with those of the same inputs that are not. -/
structure OnlyRemovesWork (plan : Plan) (store : Store σ) (s₀ : σ)
    (diff : Except Error (List String)) (body : TaskContext → Except Error TaskResult)
    (actions : List Action) (c : Progress × σ) (report : RunReport) : Prop where
  /-- Each job is cancelled or ends as in every run that nobody cancels, and so is the decision. -/
  removes : ∀ (actions' : List Action) (c' : Progress × σ) (report' : RunReport),
    Runs plan store (.fixed diff body) (Progress.start plan, s₀) actions' c' →
    Action.cancel ∉ actions' → c'.1.report? = some report' →
      List.Forall₂ (fun r r' => r.outcome = .cancelled ∨
        (r.outcome, r.exitCode, r.message) = (r'.outcome, r'.exitCode, r'.message))
        report.jobs report'.jobs ∧
      (report.decision = none ∨ report.decision = report'.decision) ∧
      (report.hasFailures = true → report'.hasFailures = true)
  /-- A body that has started counts for what it returns. -/
  counts : ∀ (b : Progress × σ) (i : Nat) (w : Worker),
    Passes plan store (.fixed diff body) (Progress.start plan, s₀) actions c b →
    b.1.workers[i]? = some w → w.stage.inBody = true →
      ∃ r, report.jobs[i]? = some r ∧ r.outcome ≠ .cancelled ∧
        (r.outcome, r.exitCode, r.message) = Ending.verdict (body (plan.context w.job))
  /-- Where a worker has its last look still to come when the run is cancelled, its body does not
  start. -/
  bars : ∀ (before after : List Action) (b : Progress × σ) (i : Nat) (w : Worker),
    actions = before ++ after →
    Runs plan store (.fixed diff body) (Progress.start plan, s₀) before b →
    Runs plan store (.fixed diff body) b after c →
    b.1.cancelled = true → b.1.workers[i]? = some w → w.stage.looksAgain = true →
      (∀ d w', Passes plan store (.fixed diff body) b after c d → d.1.workers[i]? = some w' →
        w'.stage.inBody = false) ∧
      ∃ r, report.jobs[i]? = some r ∧ r.startedAt = none
  /-- A job is cancelled only if somebody has cancelled the run, and the run tells so. -/
  tells : ∀ r ∈ report.jobs, r.outcome = .cancelled →
    Action.cancel ∈ actions ∧ .runCancelled report.completedAt ∈ c.1.said
  /-- A run that is cancelled before it begins does nothing. -/
  idles : actions.head? = some .cancel →
    (∀ r ∈ report.jobs, r.outcome = .cancelled) ∧ c.2 = s₀ ∧
    report.decision = none ∧ report.detectorError = some "cancelled" ∧
    ∀ b, Passes plan store (.fixed diff body) (Progress.start plan, s₀) actions c b →
      b.1.detection ≠ .listing ∧ ∀ w ∈ b.1.workers, w.stage.inBody = false

/-- Reports that are cancelled or settled, against reports that are settled. -/
theorem forall₂_of_settled {α : Type} {f : Job → α} {g : JobReport → α} {jobs : List Job}
    {reports reports' : List JobReport}
    (h : List.Forall₂ (fun job r => r.outcome = .cancelled ∨ g r = f job) jobs reports)
    (h' : List.Forall₂ (fun job r => g r = f job) jobs reports') :
    List.Forall₂ (fun r r' => r.outcome = .cancelled ∨ g r = g r') reports reports' := by
  induction h generalizing reports' with
  | nil => cases h'; exact .nil
  | cons hHead _ ih =>
      cases h' with
      | cons hHead' hTail' => exact .cons (hHead.imp_right fun h => h.trans hHead'.symm) (ih hTail')

theorem hasFailures_of_forall₂ {reports reports' : List JobReport}
    (h : List.Forall₂ (fun r r' => r.outcome = .cancelled ∨
      (r.outcome, r.exitCode, r.message) = (r'.outcome, r'.exitCode, r'.message)) reports reports')
    (hFailure : reports.any (·.outcome.isFailure) = true) :
    reports'.any (·.outcome.isFailure) = true := by
  induction h with
  | nil => exact hFailure
  | cons hHead _ ih =>
      rw [List.any_cons, Bool.or_eq_true] at hFailure ⊢
      rcases hFailure with hFailure | hFailure
      · left
        rcases hHead with hCancelled | hSame
        · rw [hCancelled] at hFailure
          cases hFailure
        · obtain ⟨hOutcome, -⟩ := Prod.mk.inj hSame
          rwa [← hOutcome]
      · exact .inr (ih hFailure)

section

variable (run : Runs plan store (.fixed diff body) (Progress.start plan, s₀) actions c)
  (agrees : Agrees plan c.1 report)

include run agrees

/-- In a world that answers in one way, each job is reported as cancelled or as settled. -/
theorem Runs.reports_of_fixed :
    List.Forall₂ (fun job r => r.outcome = .cancelled ∨ (r.outcome, r.exitCode, r.message) =
      settle (plan.isGated job) (plan.detector.detect store s₀ diff).1
        (store.getFlag (plan.detector.detect store s₀ diff).2 plan.detector.key)
        (body (plan.context job))) plan.graph.jobs report.jobs := by
  refine run.forall₂_reports agrees fun w hMem r hGated hDone => ?_
  rw [← hGated]
  exact (run.settled_of_fixed hMem hDone).imp_left fun h => h.2.1

theorem Runs.reports_of_uncancelled (hUncancelled : Action.cancel ∉ actions) :
    List.Forall₂ (fun job r => (r.outcome, r.exitCode, r.message) =
      settle (plan.isGated job) (plan.detector.detect store s₀ diff).1
        (store.getFlag (plan.detector.detect store s₀ diff).2 plan.detector.key)
        (body (plan.context job))) plan.graph.jobs report.jobs := by
  refine run.forall₂_reports agrees fun w hMem r hGated hDone => ?_
  rw [← hGated]
  exact (run.settled_of_fixed hMem hDone).resolve_left fun h =>
    hUncancelled ((run.cancelled_iff rfl).mp h.1)

/-- In such a world a run reports of its detector what it returns, unless it is cancelled. -/
theorem Runs.findings_of_fixed :
    (c.1.cancelled = true ∧ report.decision = none) ∨
      (report.decision, report.detectorError) =
        findings (plan.detector.detect store s₀ diff).1 := by
  obtain ⟨signal, hEnded⟩ := agrees.ended
  rcases run.detection_of_fixed hEnded with ⟨hCancelled, hNone, -⟩ | ⟨hEq, -⟩
  · exact .inl ⟨hCancelled, hNone⟩
  · exact .inr (findings_of_concluded hEq)

/-- A barred run reports every job as cancelled, and that there is no decision. -/
theorem Runs.report_of_barred (hFirst : actions.head? = some .cancel) :
    (∀ r ∈ report.jobs, r.outcome = .cancelled) ∧ report.decision = none ∧
      report.detectorError = some "cancelled" := by
  have barred := run.barred.2 hFirst
  obtain ⟨signal, hEnded⟩ := agrees.ended
  have hDetection := barred.detection.resolve_left (by rw [hEnded]; nofun)
  rw [hEnded] at hDetection
  injection hDetection with _ hDecision hError
  refine ⟨fun r hMem => ?_, hDecision, hError⟩
  obtain ⟨w, hWorker, hDone⟩ := agrees.exists_worker hMem
  rcases barred.workers w hWorker with h | ⟨holdsSlot, h⟩ | ⟨r', h, hOutcome⟩
  · rw [hDone] at h
    cases h
  · rw [hDone] at h
    cases h
  · rw [hDone] at h
    cases h
    exact hOutcome

end

/-- A request to cancel, whenever it comes, only removes work. -/
theorem cancellation_only_removes_work
    (run : Runs plan store (.fixed diff body) (Progress.start plan, s₀) actions c)
    (hReport : c.1.report? = some report) :
    OnlyRemovesWork plan store s₀ diff body actions c report := by
  have agrees := run.agrees_of_report? hReport
  refine ⟨?_, ?_, ?_, ?_, ?_⟩
  · intro actions' c' report' uncancelled hUncancelled hReport'
    have agrees' := uncancelled.agrees_of_report? hReport'
    have hJobs := forall₂_of_settled (run.reports_of_fixed agrees)
      (uncancelled.reports_of_uncancelled agrees' hUncancelled)
    refine ⟨hJobs, ?_, hasFailures_of_forall₂ hJobs⟩
    rcases run.findings_of_fixed agrees with ⟨-, hNone⟩ | hFindings
    · exact .inl hNone
    · have hFindings' := (uncancelled.findings_of_fixed agrees').resolve_left fun h =>
        hUncancelled ((uncancelled.cancelled_iff rfl).mp h.1)
      exact .inr (congrArg Prod.fst (hFindings.trans hFindings'.symm))
  · rintro b i w ⟨before, after, -, -, hAfter⟩ hWorker hBody
    exact hAfter.verdict_of_inBody agrees hWorker hBody
  · rintro before after b i w - - hAfter hCancelled hWorker hLooks
    constructor
    · rintro d w' ⟨first, second, -, hFirst, -⟩ hWorker'
      obtain ⟨v, hAt, hOut⟩ := hFirst.keptOut_of_cancelled hCancelled hWorker hLooks
      cases hWorker'.symm.trans hAt
      exact Stage.inBody_of_keptOut hOut
    · obtain ⟨v, hAt, hOut⟩ := hAfter.keptOut_of_cancelled hCancelled hWorker hLooks
      obtain ⟨r, hDone, hPlace⟩ := agrees.report_of_worker hAt
      rw [hDone] at hOut
      exact ⟨r, hPlace, Option.isNone_iff_eq_none.mp hOut⟩
  · intro r hMem hOutcome
    exact ⟨(run.cancelled_iff rfl).mp (run.cancelled_of_report agrees hMem hOutcome),
      run.cancellation_said report (.inr (phase_of_report? hReport)) r hMem hOutcome⟩
  · intro hFirst
    obtain ⟨hJobs, hDecision, hError⟩ := run.report_of_barred agrees hFirst
    exact ⟨hJobs, (run.barred.2 hFirst).store_eq, hDecision, hError,
      fun b passed => run.silent_of_barred hFirst passed⟩

/-- A run of the sample plan that is cancelled while the paths are listed. -/
def cancelledSchedule : List (Action × Moment) :=
  scheduled
    [.advance, .advance, .detect, .work 0, .work 1, .work 0, .work 1, .work 1, .work 1, .work 1,
      .cancel, .abandon false, .work 0, .work 0, .returned 1 (.ok ⟨0, true⟩), .work 1,
      .advance, .advance, .advance]

theorem cancelledSchedule_answers :
    ∀ entry ∈ cancelledSchedule, ∀ p, (sampleWorld : World σ).Answers samplePlan p entry.1 := by
  simp [cancelledSchedule, scheduled, World.Answers, sampleWorld, World.fixed]

/-- The sample plan, cancelled while the paths are listed: the job that has started is not touched,
and the other one is cancelled. -/
theorem sample_cancelled_run :
    ∃ c actions report,
      Runs samplePlan Store.memory sampleWorld (Progress.start samplePlan, ∅) actions c ∧
      c.1.report? = some report ∧
      report.jobs.map (·.outcome) = [.cancelled, .succeeded] ∧
      OnlyRemovesWork samplePlan Store.memory ∅ (.ok ["src/lib"]) (fun _ => .ok ⟨0, true⟩) actions c
        report := by
  have hCheck : (replay samplePlan Store.memory cancelledSchedule
      (Progress.start samplePlan, ∅)).any (fun c => c.1.report?.any fun report =>
        report.jobs.map (·.outcome) = [.cancelled, .succeeded]) = true := by decide
  obtain ⟨c, run, hEnd⟩ := Runs.exists_of_replay cancelledSchedule_answers hCheck
  obtain ⟨report, hReport, hOutcomes⟩ := (Option.any_eq_true _ _).mp hEnd
  exact ⟨c, _, report, run, hReport, of_decide_eq_true hOutcomes,
    cancellation_only_removes_work run hReport⟩

end ChangeGate.Run
