import ChangeGate.Proofs.Plan
import ChangeGate.Proofs.Run.Completion
import ChangeGate.Proofs.Run.Ending
import ChangeGate.Proofs.Run.Publication
import ChangeGate.Proofs.Run.Replay
import ChangeGate.Proofs.Summary

/-! The life of a run as its events tell it, beside what it reports. Each account is kept by its own
part of the run: the phases open and close the log, each worker starts and completes its job once,
and the summary counts the reports. -/

namespace ChangeGate.Run

open Progress

variable {σ : Type} {plan : Plan} {store : Store σ} {world : World σ} {s₀ : σ}
  {start c : Progress × σ} {actions : List Action} {report : RunReport} {m : Moment} {p : Progress}
  {s : σ}

/-- The first two events of a run. -/
def opening (plan : Plan) (at_ : Timestamp) : List Event.Body :=
  [.runStarted plan.workflow.name plan.revisions at_,
    .matrixExpanded plan.graph.jobs.length plan.graph.dependents.length
      (plan.graph.jobs.length - plan.graph.dependents.length)]

/-- The last event of a run. -/
def lastEvent (report : RunReport) : Event.Body :=
  .runCompleted report.workflow report.summary report.duration report.completedAt

/-- What a run has published by the time that it stands in a phase: the first two events, those of
the detector and the workers, a cancellation if there was one, and the last event. -/
inductive Logged (plan : Plan) (cancelled : Bool) : Phase → List Event.Body → Prop where
  | created : Logged plan cancelled .created []
  | begun (at_ : Timestamp) :
      Logged plan cancelled .begun [.runStarted plan.workflow.name plan.revisions at_]
  | aborted (at_ : Timestamp) : Logged plan cancelled .aborted (opening plan at_)
  | active (at_ : Timestamp) {inner : List Event.Body} (hInner : ∀ e ∈ inner, isFrame e = false) :
      Logged plan cancelled .active (opening plan at_ ++ inner)
  | joined (at_ : Timestamp) {inner : List Event.Body} {report : RunReport}
      (hInner : ∀ e ∈ inner, isFrame e = false) :
      Logged plan cancelled (.joined report) (opening plan at_ ++ inner)
  | closing (at_ : Timestamp) {inner late : List Event.Body} {report : RunReport}
      (hInner : ∀ e ∈ inner, isFrame e = false)
      (hLate : late = [] ∨ late = [.runCancelled report.completedAt] ∧ cancelled = true) :
      Logged plan cancelled (.closing report) (opening plan at_ ++ inner ++ late)
  | completed (at_ : Timestamp) {inner late : List Event.Body} {report : RunReport}
      (hInner : ∀ e ∈ inner, isFrame e = false)
      (hLate : late = [] ∨ late = [.runCancelled report.completedAt] ∧ cancelled = true) :
      Logged plan cancelled (.completed report)
        (opening plan at_ ++ inner ++ late ++ [lastEvent report])

theorem Logged.of_cancel {phase : Phase} {said : List Event.Body}
    (logged : Logged plan false phase said) : Logged plan true phase said := by
  cases logged with
  | created => exact .created
  | begun at_ => exact .begun at_
  | aborted at_ => exact .aborted at_
  | active at_ hInner => exact .active at_ hInner
  | joined at_ hInner => exact .joined at_ hInner
  | closing at_ hInner hLate => exact .closing at_ hInner (.inl (hLate.resolve_right nofun))
  | completed at_ hInner hLate => exact .completed at_ hInner (.inl (hLate.resolve_right nofun))

/-- While the workers and the detector go on, events of theirs may follow. -/
theorem Logged.append {cancelled : Bool} {said events : List Event.Body}
    (logged : Logged plan cancelled .active said) (hEvents : ∀ e ∈ events, isFrame e = false) :
    Logged plan cancelled .active (said ++ events) := by
  cases logged with
  | active at_ hInner =>
      rw [List.append_assoc]
      exact .active at_ (List.forall_mem_append.mpr ⟨hInner, hEvents⟩)

theorem Advance.logged {p' : Progress} (move : Advance plan m p p')
    (logged : Logged plan p.cancelled p.phase p.said) :
    Logged plan p'.cancelled p'.phase p'.said := by
  cases move with
  | begin hPhase =>
      rw [hPhase] at logged
      rw [said_tell]
      change Logged plan p.cancelled .begun (p.said ++ _)
      generalize p.said = said at logged
      cases logged with
      | created => exact .begun _
  | @expand phase hPhase hNext =>
      rw [hPhase] at logged
      rw [said_tell]
      change Logged plan p.cancelled phase (p.said ++ _)
      generalize p.said = said at logged
      cases logged with
      | begun at_ =>
          rcases hNext with rfl | rfl
          · have active : Logged plan p.cancelled .active (opening plan at_ ++ []) :=
              .active at_ (by simp)
            exact active
          · exact .aborted at_
  | join hPhase hEnded hDone =>
      rw [hPhase] at logged
      change Logged plan p.cancelled (.joined _) p.said
      generalize p.said = said at logged
      cases logged with
      | active at_ hInner => exact .joined at_ hInner
  | @close report hPhase =>
      rw [hPhase] at logged
      rw [said_tell]
      change Logged plan p.cancelled (.closing report) (p.said ++ _)
      generalize p.said = said at logged
      cases logged with
      | joined at_ hInner =>
          refine .closing at_ hInner ?_
          cases hCancelled : p.cancelled with
          | false => exact .inl rfl
          | true => exact .inr ⟨rfl, rfl⟩
  | @complete report hPhase =>
      rw [hPhase] at logged
      rw [said_tell]
      change Logged plan p.cancelled (.completed report) (p.said ++ _)
      generalize p.said = said at logged
      cases logged with
      | closing at_ hInner hLate => exact .completed at_ hInner hLate

/-- At any moment a run has published what it should by its phase. -/
theorem Runs.logged (run : Runs plan store world (Progress.start plan, s₀) actions c) :
    Logged plan c.1.cancelled c.1.phase c.1.said := by
  induction run with
  | start => exact .created
  | others prior change ih => exact ih
  | @act actions p s c prior action m answers taken ih =>
      cases Change.of_act? taken with
      | advanced move => exact move.logged ih
      | cancelled hCancelled => exact (hCancelled ▸ ih : Logged plan false _ _).of_cancel
      | found hActive move =>
          rw [phase_find, cancelled_find, said_find, hActive]
          exact (hActive ▸ ih : Logged plan _ .active _).append fun e hMem =>
            isFrame_of_isFinding (move.event_isFinding e hMem)
      | turned hActive hWorker move =>
          change Logged plan p.cancelled p.phase (take plan m _ _ p).said
          rw [said_take, hActive]
          exact (hActive ▸ ih : Logged plan _ .active _).append fun e hMem =>
            isFrame_of_isAbout (move.event_isAbout e hMem)

/-- Every event of a run is the run's own, or tells what the detector has found, or is about a job.
-/
theorem Runs.said_known (run : Runs plan store world (Progress.start plan, s₀) actions c) :
    ∀ e ∈ c.1.said, isFrame e = true ∨ isFinding e = true ∨
      ∃ job ∈ plan.graph.jobs, isAbout job.id e = true := by
  induction run with
  | start => nofun
  | others prior change ih => exact ih
  | act prior action m answers taken ih =>
      intro e hMem
      cases Change.of_act? taken with
      | advanced move =>
          obtain ⟨events, hSaid, hFrame⟩ := move.event_isFrame
          rw [hSaid, List.mem_append] at hMem
          exact hMem.elim (ih e) fun hNew => .inl (hFrame e hNew)
      | cancelled hCancelled => exact ih e hMem
      | found hActive move =>
          rw [said_find, List.mem_append] at hMem
          exact hMem.elim (ih e) fun hNew => .inr (.inl (move.event_isFinding e hNew))
      | @turned _ i w t hActive hWorker move =>
          rw [said_take, List.mem_append] at hMem
          exact hMem.elim (ih e) fun hNew => .inr (.inr ⟨w.job,
            (prior.job_of_worker (List.mem_of_getElem? hWorker)).1, move.event_isAbout e hNew⟩)

/-- Whether an event may only follow the decision. -/
def needsDecision (plan : Plan) : Event.Body → Bool
  | .jobStarted job .. => plan.graph.dependsOnDetector job
  | .jobCompleted _ _ outcome .. => outcome == .skipped
  | _ => false

/-- Every event that may only follow the decision does. -/
def Ordered (plan : Plan) (said : List Event.Body) : Prop :=
  ∀ (i : Nat) (e : Event.Body), said[i]? = some e → needsDecision plan e = true →
    ∃ (j : Nat) (decision : Decision) (at_ : Timestamp),
      j < i ∧ said[j]? = some (.decisionRecorded plan.detector.key decision at_)

theorem Ordered.append {said events : List Event.Body} (ordered : Ordered plan said)
    (hEvents : ∀ e ∈ events, needsDecision plan e = true →
      ∃ (decision : Decision) (at_ : Timestamp),
        .decisionRecorded plan.detector.key decision at_ ∈ said) :
    Ordered plan (said ++ events) := by
  intro i e hAt hNeeds
  rcases Nat.lt_or_ge i said.length with hOld | hNew
  · rw [List.getElem?_append_left hOld] at hAt
    obtain ⟨j, decision, at_, hLt, hEarlier⟩ := ordered i e hAt hNeeds
    exact ⟨j, decision, at_, hLt, by rw [List.getElem?_append_left (by omega), hEarlier]⟩
  · rw [List.getElem?_append_right hNew] at hAt
    obtain ⟨decision, at_, hMem⟩ := hEvents e (List.mem_of_getElem? hAt) hNeeds
    obtain ⟨j, hEarlier⟩ := List.mem_iff_getElem?.mp hMem
    have hLt : j < said.length := (List.getElem?_eq_some_iff.mp hEarlier).1
    exact ⟨j, decision, at_, by omega, by rw [List.getElem?_append_left hLt, hEarlier]⟩

/-- A worker publishes such an event only after the detector is ready. -/
theorem WorkerMove.ready_of_needsDecision {i : Nat} {w : Worker} {action : Action} {t : Turn}
    (move : WorkerMove plan store m p s i w action t)
    (sound : Sound plan store world start actions (p, s) w w.stage)
    (hGated : w.gated = plan.isGated w.job) {e : Event.Body} (hMem : e ∈ t.event.toList)
    (hNeeds : needsDecision plan e = true) : p.detection.signal = .ready := by
  cases move with
  | enter hAt =>
      rw [hAt] at sound
      obtain rfl := List.mem_singleton.mp hMem
      exact (sound (hGated.trans hNeeds)).ready
  | finish hAt =>
      rw [hAt] at sound
      obtain rfl := List.mem_singleton.mp hMem
      exact (Due.skip sound (by simpa [needsDecision] using hNeeds)).2.ready
  | _ => simp [goTo] at hMem

theorem Runs.ordered (run : Runs plan store world (Progress.start plan, s₀) actions c) :
    Ordered plan c.1.said := by
  induction run with
  | start => exact fun i e hAt => by simp at hAt
  | others prior change ih => exact ih
  | act prior action m answers taken ih =>
      cases Change.of_act? taken with
      | advanced move =>
          obtain ⟨events, hSaid, hFrame⟩ := move.event_isFrame
          rw [hSaid]
          exact ih.append fun e hMem hNeeds => by
            have h := hFrame e hMem
            cases e <;> simp_all [isFrame, needsDecision]
      | cancelled hCancelled => exact ih
      | found hActive move =>
          rw [said_find]
          exact ih.append fun e hMem hNeeds => by
            have h := move.event_isFinding e hMem
            cases e <;> simp_all [isFinding, needsDecision]
      | turned hActive hWorker move =>
          have hWorkerMem := List.mem_of_getElem? hWorker
          rw [said_take]
          refine ih.append fun e hMem hNeeds => ?_
          obtain ⟨decision, error, at_, -, hSaid⟩ := prior.decision_said
            (move.ready_of_needsDecision (prior.sound _ hWorkerMem)
              (prior.job_of_worker hWorkerMem).2 hMem hNeeds)
          exact ⟨decision, at_, hSaid⟩

/-- What the body of the worker at an index has returned. -/
def results (i : Nat) (actions : List Action) : List (Except Error TaskResult) :=
  actions.filterMap fun
    | .returned j result => if j = i then some result else none
    | _ => none

/-- What a body has returned by the time that its worker stands somewhere: one result that counts,
if it was started at all. -/
def Stage.Returned (allowed : Except Error TaskResult → Prop) :
    Stage → List (Except Error TaskResult) → Prop
  | .finishing ending _, results => (ending.startedAt = none ∧ results = []) ∨
      ∃ startedAt duration result, ending = .ofResult startedAt duration result ∧
        results = [result] ∧ allowed result
  | .done report, results => (report.startedAt = none ∧ results = []) ∨
      ∃ result, report.startedAt.isSome = true ∧
        (report.outcome, report.exitCode, report.message) = Ending.verdict result ∧
        results = [result] ∧ allowed result
  | _, results => results = []

@[simp] theorem results_work (i j : Nat) (actions : List Action) :
    results i (actions ++ [.work j]) = results i actions := by
  simp [results]

@[simp] theorem results_returned (i : Nat) (actions : List Action)
    (result : Except Error TaskResult) :
    results i (actions ++ [.returned i result]) = results i actions ++ [result] := by
  simp [results]

theorem WorkerMove.results_of_ne {i j : Nat} {w : Worker} {action : Action} {t : Turn}
    (move : WorkerMove plan store m p s i w action t) (hNe : j ≠ i) :
    results j (actions ++ [action]) = results j actions := by
  cases move <;> simp [results, hNe.symm]

theorem DetectorMove.results_eq {i : Nat} {action : Action} {f : Finding σ}
    (move : DetectorMove plan store m p s action f) :
    results i (actions ++ [action]) = results i actions := by
  cases move <;> simp [results]

theorem WorkerMove.returned {i : Nat} {w : Worker} {action : Action} {t : Turn}
    {allowed : Except Error TaskResult → Prop}
    (move : WorkerMove plan store m p s i w action t)
    (hAllowed : ∀ result, action = .returned i result → allowed result)
    (h : w.stage.Returned allowed (results i actions)) :
    t.stage.Returned allowed (results i (actions ++ [action])) := by
  cases move with
  | cancel hAt hCancelled =>
      rw [results_work]
      generalize w.stage = stage at hAt h
      cases hAt <;> exact .inl ⟨rfl, h⟩
  | withdraw hAt hCancelled =>
      rw [hAt] at h
      rw [results_work]
      exact .inl ⟨rfl, h⟩
  | lose hAt hFailed => rw [hAt] at h; rw [results_work]; exact .inl ⟨rfl, h⟩
  | heed hAt hGivenUp => rw [hAt] at h; rw [results_work]; exact .inl ⟨rfl, h⟩
  | skip hAt hAnswer => rw [hAt] at h; rw [results_work]; exact .inl ⟨rfl, h⟩
  | miss hAt hAnswer => rw [hAt] at h; rw [results_work]; exact .inl ⟨rfl, h⟩
  | reach hAt hReady => rw [hAt] at h; rw [results_work]; exact h
  | proceed hAt hAnswer => rw [hAt] at h; rw [results_work]; exact h
  | leave hAt =>
      rw [hAt] at h
      rw [results_returned, show results i actions = [] from h]
      exact .inr ⟨_, _, _, rfl, rfl, hAllowed _ rfl⟩
  | finish hAt =>
      rw [hAt] at h
      rw [results_work]
      rcases h with h | ⟨startedAt, duration, result, rfl, hResults, hResult⟩
      · exact .inl h
      · exact .inr ⟨result, rfl, rfl, hResults, hResult⟩
  | wait hAt hGated hCancelled => rw [hAt] at h; rw [results_work]; exact h
  | bypass hAt hGated hCancelled => rw [hAt] at h; rw [results_work]; exact h
  | listen hAt hCancelled => rw [hAt] at h; rw [results_work]; exact h
  | unlimited hAt hFree => rw [hAt] at h; rw [results_work]; exact h
  | claim hAt hCancelled => rw [hAt] at h; rw [results_work]; exact h
  | secure hAt hFree => rw [hAt] at h; rw [results_work]; exact h
  | start hAt hCancelled => rw [hAt] at h; rw [results_work]; exact h
  | enter hAt => rw [hAt] at h; rw [results_work]; exact h

/-- The body of each job of a run has returned as often as its worker has been left by one. -/
theorem Runs.returned (run : Runs plan store world (Progress.start plan, s₀) actions c) :
    ∀ (i : Nat) (w : Worker), c.1.workers[i]? = some w →
      w.stage.Returned (world.body (plan.context w.job)) (results i actions) := by
  induction run with
  | start =>
      intro i w hWorker
      obtain ⟨job, -, rfl⟩ := List.mem_map.mp (List.mem_of_getElem? hWorker)
      rfl
  | others prior change ih => exact ih
  | @act actions p s c prior action m answers taken ih =>
      intro j w' hWorker'
      cases Change.of_act? taken with
      | advanced move =>
          have hResults : results j (actions ++ [.advance]) = results j actions := by
            simp [results]
          rw [hResults]
          cases move <;> exact ih j w' hWorker'
      | cancelled hCancelled =>
          have hResults : results j (actions ++ [.cancel]) = results j actions := by simp [results]
          rw [hResults]
          exact ih j w' hWorker'
      | found hActive move =>
          rw [move.results_eq]
          exact ih j w' hWorker'
      | @turned _ i w t hActive hWorker move =>
          rcases worker_of_take hWorker hWorker' with ⟨rfl, rfl⟩ | ⟨hNe, hKept⟩
          · exact move.returned (by rintro result rfl; exact answers w hWorker) (ih _ w hWorker)
          · rw [move.results_of_ne hNe]
            exact ih j w' hKept

theorem Runs.run_of_published (run : Runs plan store world (Progress.start plan, s₀) actions c) :
    ∀ e ∈ c.1.published, e.run = plan.run := by
  have hNew : ∀ (event : Option Event.Body), ∀ e ∈ event.toList.map (Event.mk plan.run),
      e.run = plan.run := by
    intro event e hMem
    obtain ⟨body, -, rfl⟩ := List.mem_map.mp hMem
    rfl
  induction run with
  | start => nofun
  | others prior change ih => exact ih
  | act prior action m answers taken ih =>
      cases Change.of_act? taken with
      | advanced move =>
          cases move with
          | join hPhase hEnded hDone => exact ih
          | _ => exact List.forall_mem_append.mpr ⟨ih, hNew _⟩
      | cancelled hCancelled => exact ih
      | found hActive move => exact List.forall_mem_append.mpr ⟨ih, hNew _⟩
      | turned hActive hWorker move => exact List.forall_mem_append.mpr ⟨ih, hNew _⟩

/-- What the events of a run that has ended say of its jobs, and its report beside them. -/
structure Chronicle (plan : Plan) (world : World σ) (jobs : List Job) (actions : List Action)
    (p : Progress) (report : RunReport) : Prop where
  /-- The first two events come first and the last one last, each once, and right before the last
  one a cancellation if there was one. What stands between is found by the detector or about a job.
  -/
  framed : ∃ at_ inner late,
    p.said = opening plan at_ ++ inner ++ late ++ [lastEvent report] ∧
    (∀ e ∈ inner, isFrame e = false ∧
      (isFinding e = true ∨ ∃ job ∈ jobs, isAbout job.id e = true)) ∧
    (late = [] ∨ late = [.runCancelled report.completedAt] ∧ Action.cancel ∈ actions)
  /-- Every event is one of this run. -/
  own : ∀ e ∈ p.published, e.run = plan.run
  /-- The detector tells what it has found at most once, and it does if nobody cancels. -/
  found : (p.said.filter isFinding).length ≤ 1 ∧
    (Action.cancel ∉ actions → (p.said.filter isFinding).length = 1)
  /-- No two jobs have one identifier. -/
  distinct : (jobs.map (·.id)).Nodup
  /-- Each job has its report at its place, and completes once as reported, after it has started at
  most once; it starts exactly if it succeeds or fails. -/
  completed : List.Forall₂ (fun job r => r.id = job.id ∧
      p.said.filter (isAbout job.id) =
        (r.startedAt.map (.jobStarted job.id job.name)).toList ++
          [.jobCompleted job.id job.name r.outcome r.exitCode r.duration] ∧
      (r.startedAt.isSome = true ↔ r.outcome = .succeeded ∨ r.outcome = .failed))
    jobs report.jobs
  /-- A job that has not started has no call of its body, and one that has has exactly one, which
  returned what is reported. -/
  called : ∀ (i : Nat) (job : Job) (r : JobReport), jobs[i]? = some job → report.jobs[i]? = some r →
    (r.startedAt = none ∧ results i actions = []) ∨
      ∃ result, r.startedAt.isSome = true ∧ results i actions = [result] ∧
        world.body (plan.context job) result ∧
        (r.outcome, r.exitCode, r.message) = Ending.verdict result
  /-- The start of a gated job, and the completion of a skipped one, come after the decision. -/
  ordered : Ordered plan p.said
  /-- The jobs are reported in the order of their indices, from zero. -/
  indices : report.jobs.map (·.index) = List.range jobs.length
  /-- The summary of the last event counts the reports of each outcome. -/
  counts : ∀ outcome, report.summary.count outcome = report.jobs.countP (·.outcome = outcome)

/-- The detector tells what it has found once, or not at all because it was given up. -/
theorem Runs.findings_once (run : Runs plan store world (Progress.start plan, s₀) actions c)
    {signal : Signal} {decision : Option Decision} {error : Option String}
    (hEnded : c.1.detection = .ended signal decision error) :
    (c.1.said.filter isFinding).length ≤ 1 ∧
      (Action.cancel ∉ actions → (c.1.said.filter isFinding).length = 1) := by
  have announced := run.announced
  have found := run.found
  rw [hEnded] at announced found
  cases signal with
  | pending => cases found
  | ready =>
      obtain ⟨d, at_, -, hSaid⟩ := announced
      rw [hSaid]
      exact ⟨Nat.le_refl 1, fun _ => rfl⟩
  | failed =>
      obtain ⟨text, -, hSaid⟩ := announced
      rw [hSaid]
      exact ⟨Nat.le_refl 1, fun _ => rfl⟩
  | cancelled =>
      rw [show c.1.said.filter isFinding = [] from announced]
      exact ⟨Nat.zero_le 1, fun h => absurd ((run.cancelled_iff rfl).mp found.1) h⟩

section

variable (run : Runs plan store world (Progress.start plan, s₀) actions c)
  (agrees : Agrees plan c.1 report)

include run

/-- The events of a run that has ended, from the first to the last. -/
theorem Runs.framed_of_report? (hReport : c.1.report? = some report) :
    ∃ at_ inner late,
      c.1.said = opening plan at_ ++ inner ++ late ++ [lastEvent report] ∧
      (∀ e ∈ inner, isFrame e = false ∧
        (isFinding e = true ∨ ∃ job ∈ plan.graph.jobs, isAbout job.id e = true)) ∧
      (late = [] ∨ late = [.runCancelled report.completedAt] ∧ Action.cancel ∈ actions) := by
  have logged := run.logged
  have known := run.said_known
  rw [phase_of_report? hReport] at logged
  generalize c.1.said = said at logged known
  cases logged with
  | @completed at_ inner late _ hInner hLate =>
      refine ⟨at_, inner, late, rfl, fun e hMem => ⟨hInner e hMem, ?_⟩, ?_⟩
      · exact (known e (by simp [hMem])).resolve_left (by simp [hInner e hMem])
      · exact hLate.imp_right fun ⟨hEq, h⟩ => ⟨hEq, (run.cancelled_iff rfl).mp h⟩

include agrees

/-- Each job of a run that has ended has completed once, as reported. -/
theorem Runs.completed_of_agrees :
    List.Forall₂ (fun job r => r.id = job.id ∧
        c.1.said.filter (isAbout job.id) =
          (r.startedAt.map (.jobStarted job.id job.name)).toList ++
            [.jobCompleted job.id job.name r.outcome r.exitCode r.duration] ∧
        (r.startedAt.isSome = true ↔ r.outcome = .succeeded ∨ r.outcome = .failed))
      plan.graph.jobs report.jobs := by
  refine run.forall₂_reports agrees fun w hMem r hGated hDone => ?_
  obtain ⟨i, hWorker⟩ := List.mem_iff_getElem?.mp hMem
  have hHistory := run.histories i w hWorker
  rw [hDone] at hHistory
  obtain ⟨ending, completedAt, due, rfl⟩ := run.due_of_done hMem hDone
  exact ⟨rfl, hHistory, due.started_iff⟩

/-- Each job of a run that has ended was started with one call of its body, or with none. -/
theorem Runs.called_of_agrees (i : Nat) (job : Job) (r : JobReport)
    (hJob : plan.graph.jobs[i]? = some job) (hReport : report.jobs[i]? = some r) :
    (r.startedAt = none ∧ results i actions = []) ∨
      ∃ result, r.startedAt.isSome = true ∧ results i actions = [result] ∧
        world.body (plan.context job) result ∧
        (r.outcome, r.exitCode, r.message) = Ending.verdict result := by
  obtain ⟨w, r', hWorker, rfl, -, hDone, hReport'⟩ := run.report_at agrees hJob
  obtain rfl := Option.some.inj (hReport.symm.trans hReport')
  have hReturned := run.returned i w hWorker
  rw [hDone] at hReturned
  rcases hReturned with h | ⟨result, hStarted, hVerdict, hResults, hResult⟩
  · exact .inl h
  · exact .inr ⟨result, hStarted, hResults, hResult, hVerdict⟩

theorem Runs.indices_of_agrees :
    report.jobs.map (·.index) = plan.graph.jobs.map (·.index) := by
  symm
  refine run.map_reports agrees fun w hMem r hGated hDone => ?_
  obtain ⟨ending, completedAt, due, rfl⟩ := run.due_of_done hMem hDone
  rfl

end

/-- Every run of a plan that was made of a workflow, in whatever order its steps are taken and
whenever it is cancelled, has at any moment published what its phase and its workers call for, in
order; and when it has ended, its events, its report and its summary tell the same story once. -/
theorem chronicle_of_run {newId : Nat → JobId} {runId : RunId} {workflow : Workflow}
    {revisions : Revisions} {settings : Settings} {detector : Detector}
    (hPlan : Plan.make runId workflow revisions settings newId detector = .ok plan)
    (run : Runs plan store world (Progress.start plan, s₀) actions c) :
    ∃ expansion, workflow.matrix.expand workflow.name newId = .ok expansion ∧
      Logged plan c.1.cancelled c.1.phase c.1.said ∧ Ordered plan c.1.said ∧
      (∀ (i : Nat) (w : Worker), c.1.workers[i]? = some w →
        c.1.said.filter (isAbout w.job.id) = w.stage.history w.job) ∧
      ∀ report, c.1.report? = some report →
        Chronicle plan world expansion.jobs actions c.1 report := by
  obtain ⟨expansion, -, hExpand, hJobs, -⟩ := Plan.of_make hPlan
  refine ⟨expansion, hExpand, run.logged, run.ordered, run.histories, fun report hReport => ?_⟩
  have agrees := run.agrees_of_report? hReport
  obtain ⟨signal, hEnded⟩ := agrees.ended
  rw [← hJobs]
  exact
    { framed := run.framed_of_report? hReport
      own := run.run_of_published
      found := run.findings_once hEnded
      distinct := plan.graph.nodup_ids
      completed := run.completed_of_agrees agrees
      called := run.called_of_agrees agrees
      ordered := run.ordered
      indices := by rw [run.indices_of_agrees agrees, hJobs, Matrix.indices_of_expand hExpand]
      counts := report.count_summary }

/-- The sample plan in a run to its end. -/
theorem sample_chronicle :
    ∃ c actions report expansion,
      Runs samplePlan Store.memory sampleWorld (Progress.start samplePlan, ∅) actions c ∧
      c.1.report? = some report ∧
      Chronicle samplePlan (sampleWorld : World (Table Json)) expansion actions c.1 report := by
  have hPlan : Plan.make ⟨Uuid.ofNat 7⟩ sampleWorkflow ⟨"main", "topic"⟩ { workspace := "." }
      (fun i => ⟨Uuid.ofNat i⟩) = .ok samplePlan := by rfl
  have hCheck : (replay samplePlan Store.memory sampleSchedule
      (Progress.start samplePlan, ∅)).any (fun c => c.1.report?.isSome) = true := by decide
  obtain ⟨c, run, hEnd⟩ := Runs.exists_of_replay sampleSchedule_answers hCheck
  obtain ⟨report, hReport⟩ := Option.isSome_iff_exists.mp hEnd
  obtain ⟨expansion, -, -, -, -, hChronicle⟩ := chronicle_of_run hPlan run
  exact ⟨c, _, report, expansion.jobs, run, hReport, hChronicle report hReport⟩

end ChangeGate.Run
