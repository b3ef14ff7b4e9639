import ChangeGate.Proofs.Run.Course

/-! What a run publishes. The run as a whole opens and closes the log, the detector tells once what
it has found, and each worker tells of its own job: that its body has started, if it has, and how it
ended. Whether the bus takes an event makes no difference. -/

namespace ChangeGate.Run

open Progress

variable {σ : Type} {plan : Plan} {store : Store σ} {world : World σ} {s₀ : σ}
  {start c : Progress × σ} {actions : List Action} {m : Moment} {p p' : Progress} {s : σ}

/-- Whether an event tells what the detector has found. -/
def isFinding : Event.Body → Bool
  | .decisionRecorded .. => true
  | .detectorFailed _ => true
  | _ => false

/-- Whether an event opens or closes the log. -/
def isFrame : Event.Body → Bool
  | .runStarted .. => true
  | .matrixExpanded .. => true
  | .runCancelled _ => true
  | .runCompleted .. => true
  | _ => false

/-- Whether an event is about the job of an identifier. -/
def isAbout (id : JobId) (event : Event.Body) : Bool := event.job? == some id

theorem Advance.event_isFrame (move : Advance plan m p p') :
    ∃ events, p'.said = p.said ++ events ∧ ∀ e ∈ events, isFrame e = true := by
  cases move with
  | begin hPhase => exact ⟨_, said_tell .., by simp [isFrame]⟩
  | expand hPhase hNext => exact ⟨_, said_tell .., by simp [isFrame]⟩
  | join hPhase hEnded hDone => exact ⟨[], by simp [said], by simp⟩
  | close hPhase =>
      refine ⟨_, said_tell .., ?_⟩
      split <;> simp [isFrame]
  | complete hPhase => exact ⟨_, said_tell .., by simp [isFrame]⟩

theorem DetectorMove.event_isFinding {action : Action} {f : Finding σ}
    (move : DetectorMove plan store m p s action f) :
    ∀ e ∈ f.event.toList, isFinding e = true := by
  cases move <;> simp [isFinding]

theorem WorkerMove.event_isAbout {i : Nat} {w : Worker} {action : Action} {t : Turn}
    (move : WorkerMove plan store m p s i w action t) :
    ∀ e ∈ t.event.toList, isAbout w.job.id e = true := by
  cases move <;> simp [isAbout, goTo, Event.Body.job?]

/-- New events that are none of a kind leave those of the kind as they are. -/
theorem filter_append_of_none {kind : Event.Body → Bool} {said events : List Event.Body}
    (h : ∀ e ∈ events, kind e = false) : (said ++ events).filter kind = said.filter kind := by
  have hNone : events.filter kind = [] := List.filter_eq_nil_iff.mpr (by simpa using h)
  rw [List.filter_append, hNone, List.append_nil]

theorem isFinding_of_isFrame {e : Event.Body} (h : isFrame e = true) : isFinding e = false := by
  cases e <;> simp_all [isFrame, isFinding]

theorem isAbout_of_isFrame {e : Event.Body} (id : JobId) (h : isFrame e = true) :
    isAbout id e = false := by
  cases e <;> simp_all [isFrame, isAbout, Event.Body.job?]

theorem isAbout_of_isFinding {e : Event.Body} (id : JobId) (h : isFinding e = true) :
    isAbout id e = false := by
  cases e <;> simp_all [isFinding, isAbout, Event.Body.job?]

theorem isFrame_of_isFinding {e : Event.Body} (h : isFinding e = true) : isFrame e = false := by
  cases e <;> simp_all [isFrame, isFinding]

theorem isFrame_of_isAbout {e : Event.Body} {id : JobId} (h : isAbout id e = true) :
    isFrame e = false := by
  cases e <;> simp_all [isFrame, isAbout, Event.Body.job?]

theorem isFinding_of_isAbout {e : Event.Body} {id : JobId} (h : isAbout id e = true) :
    isFinding e = false := by
  cases hFinding : isFinding e with
  | false => rfl
  | true => rw [isAbout_of_isFinding id hFinding] at h; cases h

theorem isAbout_of_ne {e : Event.Body} {id id' : JobId} (h : isAbout id e = true) (hNe : id' ≠ id) :
    isAbout id' e = false := by
  simp only [isAbout, beq_iff_eq] at h
  simp [isAbout, h, hNe.symm]

/-- What the detector has published by the time that it stands somewhere. -/
def Announced (key : String) : Detection → List Event.Body → Prop
  | .announced (.ok decision), events => ∃ at_, events = [.decisionRecorded key decision at_]
  | .announced (.error e), events => events = [.detectorFailed e.message]
  | .ended .ready decision _, events =>
      ∃ d at_, decision = some d ∧ events = [.decisionRecorded key d at_]
  | .ended .failed _ error, events => ∃ text, error = some text ∧ events = [.detectorFailed text]
  | _, events => events = []

/-- A step of the detector publishes what it has found exactly when it goes to say so. -/
theorem DetectorMove.announced {action : Action} {f : Finding σ}
    (move : DetectorMove plan store m p s action f)
    (h : Announced plan.detector.key p.detection (p.said.filter isFinding)) :
    Announced plan.detector.key f.detection ((find plan m p f).1.said.filter isFinding) := by
  rw [said_find, List.filter_append]
  cases move with
  | stop hAt hCancelled => rw [hAt] at h; simpa [Announced] using h
  | list hAt hCancelled => rw [hAt] at h; simpa [Announced] using h
  | judge hAt => rw [hAt] at h; simpa [Announced] using h
  | write hAt => rw [hAt] at h; simpa [Announced] using h
  | pass hAt => rw [hAt] at h; simpa [Announced] using h
  | announce hAt =>
      rw [hAt] at h
      rw [show p.said.filter isFinding = [] from h]
      exact ⟨_, rfl⟩
  | announceError hAt =>
      rw [hAt] at h
      rw [show p.said.filter isFinding = [] from h]
      rfl
  | @release decision hAt =>
      rw [hAt] at h
      obtain ⟨at_, h⟩ := h
      exact ⟨decision, at_, rfl, by simpa using h⟩
  | @fail e hAt =>
      rw [hAt] at h
      exact ⟨e.message, rfl, by simpa [Announced] using h⟩
  | giveUp hCancelled hAt =>
      rcases hAt with ⟨hAt, -⟩ | ⟨decision, hAt, -⟩ <;> rw [hAt] at h <;>
        simpa [Announced] using h

/-- At any moment the detector of a run has published what it should by then. -/
theorem Runs.announced (run : Runs plan store world (Progress.start plan, s₀) actions c) :
    Announced plan.detector.key c.1.detection (c.1.said.filter isFinding) := by
  induction run with
  | start => rfl
  | others prior change ih => exact ih
  | act prior action m answers taken ih =>
      cases Change.of_act? taken with
      | advanced move =>
          obtain ⟨events, hSaid, hFrame⟩ := move.event_isFrame
          rw [hSaid, filter_append_of_none fun e hMem => isFinding_of_isFrame (hFrame e hMem)]
          cases move <;> exact ih
      | cancelled hCancelled => exact ih
      | found hActive move => exact move.announced ih
      | turned hActive hWorker move =>
          rw [said_take, filter_append_of_none fun e hMem =>
            isFinding_of_isAbout (move.event_isAbout e hMem)]
          exact ih

/-- Once the detector is ready, its decision has been published. -/
theorem Runs.decision_said (run : Runs plan store world (Progress.start plan, s₀) actions c)
    (hReady : c.1.detection.signal = .ready) :
    ∃ decision error at_, c.1.detection = .ended .ready (some decision) error ∧
      .decisionRecorded plan.detector.key decision at_ ∈ c.1.said := by
  have announced := run.announced
  cases hAt : c.1.detection with
  | ended signal decision error =>
      rw [hAt] at hReady announced
      cases hReady
      obtain ⟨d, at_, rfl, hSaid⟩ := announced
      refine ⟨d, error, at_, rfl, (List.mem_filter.mp (?_ : _ ∈ c.1.said.filter isFinding)).1⟩
      rw [hSaid]
      exact List.mem_singleton_self _
  | _ => simp [hAt, Detection.signal] at hReady

/-- What the worker of a job has published by the time that it stands somewhere. -/
def Stage.history (job : Job) : Stage → List Event.Body
  | .running startedAt _ => [.jobStarted job.id job.name startedAt]
  | .finishing ending _ => (ending.startedAt.map (.jobStarted job.id job.name)).toList
  | .done report =>
      (report.startedAt.map (.jobStarted job.id job.name)).toList ++
        [.jobCompleted job.id job.name report.outcome report.exitCode report.duration]
  | _ => []

/-- A step of a worker publishes what its history gains. -/
theorem WorkerMove.history {i : Nat} {w : Worker} {action : Action} {t : Turn}
    (move : WorkerMove plan store m p s i w action t) :
    t.stage.history w.job = w.stage.history w.job ++ t.event.toList := by
  cases move with
  | cancel hAt hCancelled =>
      generalize w.stage = stage at hAt
      cases hAt <;> rfl
  | withdraw hAt hCancelled => rw [hAt]; rfl
  | wait hAt hGated hCancelled => rw [hAt]; rfl
  | bypass hAt hGated hCancelled => rw [hAt]; rfl
  | listen hAt hCancelled => rw [hAt]; rfl
  | reach hAt hReady => rw [hAt]; rfl
  | lose hAt hFailed => rw [hAt]; rfl
  | heed hAt hGivenUp => rw [hAt]; rfl
  | proceed hAt hAnswer => rw [hAt]; rfl
  | skip hAt hAnswer => rw [hAt]; rfl
  | miss hAt hAnswer => rw [hAt]; rfl
  | unlimited hAt hFree => rw [hAt]; rfl
  | claim hAt hCancelled => rw [hAt]; rfl
  | secure hAt hFree => rw [hAt]; rfl
  | start hAt hCancelled => rw [hAt]; rfl
  | enter hAt => rw [hAt]; rfl
  | leave hAt => rw [hAt]; rfl
  | finish hAt => rw [hAt]; rfl

theorem Runs.ids_eq (run : Runs plan store world (Progress.start plan, s₀) actions c) :
    c.1.workers.map (·.job.id) = plan.graph.jobs.map (·.id) := by
  simpa [Progress.start, Function.comp_def] using
    congrArg (List.map fun e : Job × Bool => e.1.id) run.jobs_eq

/-- Workers at different places have jobs of different identifiers. -/
theorem Runs.id_ne (run : Runs plan store world (Progress.start plan, s₀) actions c) {i j : Nat}
    {w w' : Worker} (hi : c.1.workers[i]? = some w) (hj : c.1.workers[j]? = some w')
    (hNe : j ≠ i) : w'.job.id ≠ w.job.id := by
  intro hEq
  have hNodup : (c.1.workers.map (·.job.id)).Nodup := run.ids_eq ▸ plan.graph.nodup_ids
  have hLt : j < (c.1.workers.map (·.job.id)).length := by
    simpa using (List.getElem?_eq_some_iff.mp hj).1
  exact hNe ((List.getElem?_inj hLt hNodup).mp (by simp [hi, hj, hEq]))

/-- At any moment each worker of a run has published its history, and nothing else about its job has
been published. -/
theorem Runs.histories (run : Runs plan store world (Progress.start plan, s₀) actions c) :
    ∀ (i : Nat) (w : Worker), c.1.workers[i]? = some w →
      c.1.said.filter (isAbout w.job.id) = w.stage.history w.job := by
  induction run with
  | start =>
      intro i w hWorker
      obtain ⟨job, -, rfl⟩ := List.mem_map.mp (List.mem_of_getElem? hWorker)
      rfl
  | others prior change ih => exact ih
  | act prior action m answers taken ih =>
      intro j w' hWorker'
      cases Change.of_act? taken with
      | advanced move =>
          obtain ⟨events, hSaid, hFrame⟩ := move.event_isFrame
          rw [hSaid, filter_append_of_none fun e hMem => isAbout_of_isFrame _ (hFrame e hMem)]
          cases move <;> exact ih j w' hWorker'
      | cancelled hCancelled => exact ih j w' hWorker'
      | found hActive move =>
          rw [said_find, filter_append_of_none fun e hMem =>
            isAbout_of_isFinding _ (move.event_isFinding e hMem)]
          exact ih j w' hWorker'
      | @turned _ i w t hActive hWorker move =>
          rw [said_take]
          rcases worker_of_take hWorker hWorker' with ⟨rfl, rfl⟩ | ⟨hNe, hKept⟩
          · have hAbout : t.event.toList.filter (isAbout w.job.id) = t.event.toList :=
              List.filter_eq_self.mpr move.event_isAbout
            rw [List.filter_append, ih _ _ hWorker, hAbout]
            exact move.history.symm
          · rw [filter_append_of_none, ih j w' hKept]
            exact fun e hMem =>
              isAbout_of_ne (move.event_isAbout e hMem) (prior.id_ne hWorker hKept hNe)

end ChangeGate.Run
