import Mathlib.Data.List.Forall2
import ChangeGate.Proofs.Run.Course

/-! The report of a run. It is made once, when the detector and all workers have ended, and from
then on nothing but a request to cancel and the last events can follow: so it agrees with where
everybody stands. -/

namespace ChangeGate.Run

open Progress

variable {σ : Type} {plan : Plan} {store : Store σ} {world : World σ}
  {start c : Progress × σ} {actions : List Action} {p : Progress} {report : RunReport}

/-- The report of a run from when it is made. -/
def Phase.report? : Phase → Option RunReport
  | .joined report => some report
  | .closing report => some report
  | .completed report => some report
  | _ => none

/-- A report agrees with where the detector and the workers of a run stand, all of which have ended.
-/
structure Agrees (plan : Plan) (p : Progress) (report : RunReport) : Prop where
  done : ∀ w ∈ p.workers, w.stage.report?.isSome = true
  jobs_eq : report.jobs = p.reports
  ended : ∃ signal, p.detection = .ended signal report.decision report.detectorError
  id_eq : report.id = plan.run
  workflow_eq : report.workflow = plan.workflow.name
  revisions_eq : report.revisions = plan.revisions

theorem phase_of_report? (h : p.report? = some report) : p.phase = .completed report := by
  unfold Progress.report? at h
  split at h
  · next hPhase => cases h; exact hPhase
  · cases h

/-- Once there is a report, neither the detector nor a worker takes a step. -/
theorem Runs.agrees_of_unreported (run : Runs plan store world start actions c)
    (hStart : start.1.phase.report? = none) :
    ∀ report, c.1.phase.report? = some report → Agrees plan c.1 report := by
  induction run with
  | start => exact fun _ h => by rw [hStart] at h; cases h
  | others prior change ih => exact ih
  | act prior action m answers taken ih =>
      intro report hReport
      cases Change.of_act? taken with
      | advanced move =>
          cases move with
          | begin hPhase => cases hReport
          | expand hPhase hNext => rcases hNext with rfl | rfl <;> cases hReport
          | join hPhase hEnded hDone =>
              cases hReport
              exact ⟨hDone, rfl, ⟨_, hEnded⟩, rfl, rfl, rfl⟩
          | close hPhase =>
              have agrees := ih report (by rw [hPhase]; exact hReport)
              exact { agrees with }
          | complete hPhase =>
              have agrees := ih report (by rw [hPhase]; exact hReport)
              exact { agrees with }
      | cancelled hCancelled =>
          have agrees := ih report hReport
          exact { agrees with }
      | found hActive move =>
          rw [phase_find, hActive] at hReport
          cases hReport
      | turned hActive hWorker move =>
          rw [phase_take, hActive] at hReport
          cases hReport

theorem Runs.agrees {s₀ : σ} (run : Runs plan store world (Progress.start plan, s₀) actions c) :
    ∀ report, c.1.phase.report? = some report → Agrees plan c.1 report :=
  run.agrees_of_unreported rfl

theorem Runs.agrees_of_report? {s₀ : σ}
    (run : Runs plan store world (Progress.start plan, s₀) actions c)
    (hReport : c.1.report? = some report) : Agrees plan c.1 report :=
  run.agrees report (by rw [phase_of_report? hReport]; rfl)

/-- Where all workers have ended, each has its report at its own place. -/
theorem getElem?_reports (hDone : ∀ w ∈ p.workers, w.stage.report?.isSome = true) (i : Nat) :
    p.reports[i]? = p.workers[i]?.bind (·.stage.report?) := by
  unfold Progress.reports
  generalize p.workers = workers at hDone
  induction workers generalizing i with
  | nil => rfl
  | cons w rest ih =>
      obtain ⟨r, hReport⟩ := Option.isSome_iff_exists.mp (hDone w (by simp))
      simp only [List.filterMap_cons, hReport]
      cases i with
      | zero => simp [hReport]
      | succ i => simpa using ih i fun w hMem => hDone w (by simp [hMem])

theorem stage_of_report? {stage : Stage} {r : JobReport} (h : stage.report? = some r) :
    stage = .done r := by
  cases stage with
  | done r' => cases h; rfl
  | _ => cases h

/-- A report of a job was made by a worker. -/
theorem Agrees.exists_worker {r : JobReport} (agrees : Agrees plan p report)
    (hMem : r ∈ report.jobs) : ∃ w ∈ p.workers, w.stage = .done r := by
  rw [agrees.jobs_eq] at hMem
  obtain ⟨w, hWorker, hReport⟩ := List.mem_filterMap.mp hMem
  exact ⟨w, hWorker, stage_of_report? hReport⟩

/-- The worker at a place is that of the job there, and is gated if the job is. -/
theorem Runs.worker_at_of_workers (run : Runs plan store world start actions c)
    (hStart : start.1.workers = (Progress.start plan).workers) {i : Nat} {job : Job}
    (hJob : plan.graph.jobs[i]? = some job) :
    ∃ w, c.1.workers[i]? = some w ∧ w.job = job ∧ w.gated = plan.isGated job := by
  have hJobs := congrArg (·[i]?) run.jobs_eq
  simp only [hStart, Progress.start, List.map_map, Function.comp_def, List.getElem?_map, hJob,
    Option.map_some] at hJobs
  obtain ⟨w, hWorker, hEq⟩ := Option.map_eq_some_iff.mp hJobs
  exact ⟨w, hWorker, (Prod.mk.inj hEq).1, (Prod.mk.inj hEq).2⟩

theorem Runs.worker_at {s₀ : σ} (run : Runs plan store world (Progress.start plan, s₀) actions c)
    {i : Nat} {job : Job} (hJob : plan.graph.jobs[i]? = some job) :
    ∃ w, c.1.workers[i]? = some w ∧ w.job = job ∧ w.gated = plan.isGated job :=
  run.worker_at_of_workers rfl hJob

/-- The job at a place may return what its body may. -/
theorem Runs.answers_returned {s₀ : σ}
    (run : Runs plan store world (Progress.start plan, s₀) actions c) {i : Nat} {job : Job}
    {result : Except Error TaskResult} (hJob : plan.graph.jobs[i]? = some job)
    (hBody : world.body (plan.context job) result) :
    world.Answers plan c.1 (.returned i result) := by
  intro w hWorker
  obtain ⟨w', hThere, rfl, -⟩ := run.worker_at hJob
  cases hWorker.symm.trans hThere
  exact hBody

/-- A worker of a run is that of a job of the plan, and is gated if the job is. -/
theorem Runs.job_of_worker {s₀ : σ}
    (run : Runs plan store world (Progress.start plan, s₀) actions c) {w : Worker}
    (hMem : w ∈ c.1.workers) : w.job ∈ plan.graph.jobs ∧ w.gated = plan.isGated w.job := by
  have hPair : (w.job, w.gated) ∈ c.1.workers.map (fun w => (w.job, w.gated)) :=
    List.mem_map_of_mem hMem
  rw [run.jobs_eq] at hPair
  obtain ⟨v, hStart, hEq⟩ := List.mem_map.mp hPair
  obtain ⟨job, hJob, rfl⟩ := List.mem_map.mp hStart
  obtain ⟨rfl, hGated⟩ := Prod.mk.inj hEq
  exact ⟨hJob, hGated.symm⟩

theorem Runs.length_workers_of_workers (run : Runs plan store world start actions c)
    (hStart : start.1.workers = (Progress.start plan).workers) :
    c.1.workers.length = plan.graph.jobs.length := by
  simpa [hStart, Progress.start] using congrArg List.length run.jobs_eq

theorem Runs.length_workers {s₀ : σ}
    (run : Runs plan store world (Progress.start plan, s₀) actions c) :
    c.1.workers.length = plan.graph.jobs.length :=
  run.length_workers_of_workers rfl

theorem Agrees.report_of_worker (agrees : Agrees plan p report) {i : Nat} {w : Worker}
    (hWorker : p.workers[i]? = some w) : ∃ r, w.stage = .done r ∧ report.jobs[i]? = some r := by
  obtain ⟨r, hReport⟩ :=
    Option.isSome_iff_exists.mp (agrees.done w (List.mem_of_getElem? hWorker))
  refine ⟨r, stage_of_report? hReport, ?_⟩
  rw [agrees.jobs_eq, getElem?_reports agrees.done, hWorker]
  exact hReport

/-- Each job of a run has its report at its place, made by its worker. -/
theorem Runs.report_at {s₀ : σ} (run : Runs plan store world (Progress.start plan, s₀) actions c)
    (agrees : Agrees plan c.1 report) {i : Nat} {job : Job}
    (hJob : plan.graph.jobs[i]? = some job) :
    ∃ w r, c.1.workers[i]? = some w ∧ w.job = job ∧ w.gated = plan.isGated job ∧
      w.stage = .done r ∧ report.jobs[i]? = some r := by
  obtain ⟨w, hWorker, hEq, hGated⟩ := run.worker_at hJob
  obtain ⟨r, hDone, hReport⟩ := agrees.report_of_worker hWorker
  exact ⟨w, r, hWorker, hEq, hGated, hDone, hReport⟩

theorem Runs.length_reports {s₀ : σ}
    (run : Runs plan store world (Progress.start plan, s₀) actions c)
    (agrees : Agrees plan c.1 report) : report.jobs.length = plan.graph.jobs.length := by
  rw [← run.length_workers, agrees.jobs_eq]
  exact List.filterMap_length_eq_length.mpr agrees.done

/-- What is so of the report of each worker is so of the jobs and their reports, one by one. -/
theorem Runs.forall₂_reports {R : Job → JobReport → Prop} {s₀ : σ}
    (run : Runs plan store world (Progress.start plan, s₀) actions c)
    (agrees : Agrees plan c.1 report)
    (hEach : ∀ w ∈ c.1.workers, ∀ r, w.gated = plan.isGated w.job → w.stage = .done r →
      R w.job r) :
    List.Forall₂ R plan.graph.jobs report.jobs := by
  refine List.forall₂_iff_get.mpr ⟨(run.length_reports agrees).symm, ?_⟩
  intro i hJobs hReports
  obtain ⟨w, r, hWorker, hJob, hGated, hDone, hReport⟩ :=
    run.report_at agrees (List.getElem?_eq_getElem hJobs)
  obtain ⟨_, hAt⟩ := List.getElem?_eq_some_iff.mp hReport
  rw [List.get_eq_getElem, List.get_eq_getElem, hAt, ← hJob]
  exact hEach w (List.mem_of_getElem? hWorker) r (hJob ▸ hGated) hDone

theorem Runs.map_reports {β : Type} {s₀ : σ} {f : JobReport → β} {g : Job → β}
    (run : Runs plan store world (Progress.start plan, s₀) actions c)
    (agrees : Agrees plan c.1 report)
    (hEach : ∀ w ∈ c.1.workers, ∀ r, w.gated = plan.isGated w.job → w.stage = .done r →
      g w.job = f r) :
    plan.graph.jobs.map g = report.jobs.map f := by
  rw [← List.forall₂_eq_eq_eq, List.forall₂_map_left_iff, List.forall₂_map_right_iff]
  exact run.forall₂_reports agrees hEach

end ChangeGate.Run
