import ChangeGate.Run.Step

/-! What a step of a run can do. Each relation has one constructor for each thing that can happen,
with its guard; the steps are inverted here once, and later arguments go by these cases. A step of
a worker leaves the detector and the store alone, and a step of the detector the workers. -/

namespace ChangeGate.Run

open Progress

variable {σ : Type}

/-- The steps of the run as a whole. -/
inductive Advance (plan : Plan) (m : Moment) (p : Progress) : Progress → Prop where
  | begin (hPhase : p.phase = .created) :
      Advance plan m p (tell plan m
        (some (.runStarted plan.workflow.name plan.revisions m.instant))
        { p with phase := .begun, startedAt := some (m.instant, m.elapsed) })
  | expand {phase : Phase} (hPhase : p.phase = .begun) (hNext : phase = .active ∨ phase = .aborted)
      (hSlots : phase = .aborted ↔ ∃ n, p.free = some n ∧ Plan.maxSlots < n) :
      Advance plan m p (tell plan m
        (some (.matrixExpanded plan.graph.jobs.length plan.graph.dependents.length
          (plan.graph.jobs.length - plan.graph.dependents.length)))
        { p with phase })
  | join {signal : Signal} {decision : Option Decision} {error : Option String}
      (hPhase : p.phase = .active) (hEnded : p.detection = .ended signal decision error)
      (hDone : ∀ w ∈ p.workers, w.stage.report?.isSome = true) :
      Advance plan m p { p with phase := .joined (runReport plan m decision error p) }
  | close {report : RunReport} (hPhase : p.phase = .joined report) :
      Advance plan m p (tell plan m
        (if p.cancelled then some (.runCancelled report.completedAt) else none)
        { p with phase := .closing report })
  | complete {report : RunReport} (hPhase : p.phase = .closing report) :
      Advance plan m p (tell plan m
        (some (.runCompleted report.workflow report.summary report.duration report.completedAt))
        { p with phase := .completed report })

/-- The steps of the detector. The only one that writes to the store while the detector is not
given up is `write`. -/
inductive DetectorMove (plan : Plan) (store : Store σ) (m : Moment) (p : Progress) (s : σ) :
    Action → Finding σ → Prop where
  | stop (hAt : p.detection = .idle) (hCancelled : p.cancelled = true) :
      DetectorMove plan store m p s .detect
        { detection := .ended .cancelled none (some "cancelled"), state := s }
  | list (hAt : p.detection = .idle) (hCancelled : p.cancelled = false) :
      DetectorMove plan store m p s .detect { detection := .listing, state := s }
  | judge {diff : Except Error (List String)} (hAt : p.detection = .listing) :
      DetectorMove plan store m p s (.listed diff)
        { detection := .judged (plan.detector.evaluate diff), state := s }
  | write {decision : Decision} (hAt : p.detection = .judged (.ok decision)) :
      DetectorMove plan store m p s .detect
        { detection := .recorded
            ((store.putFlag s plan.detector.key decision.changesDetected).1.map fun _ => decision)
          state := (store.putFlag s plan.detector.key decision.changesDetected).2 }
  | pass {e : Error} (hAt : p.detection = .judged (.error e)) :
      DetectorMove plan store m p s .detect { detection := .recorded (.error e), state := s }
  | announce {decision : Decision} (hAt : p.detection = .recorded (.ok decision)) :
      DetectorMove plan store m p s .detect
        { detection := .announced (.ok decision), state := s
          event := some (.decisionRecorded plan.detector.key decision m.instant) }
  | announceError {e : Error} (hAt : p.detection = .recorded (.error e)) :
      DetectorMove plan store m p s .detect
        { detection := .announced (.error e), state := s
          event := some (.detectorFailed e.message) }
  | release {decision : Decision} (hAt : p.detection = .announced (.ok decision)) :
      DetectorMove plan store m p s .detect
        { detection := .ended .ready (some decision) none, state := s }
  | fail {e : Error} (hAt : p.detection = .announced (.error e)) :
      DetectorMove plan store m p s .detect
        { detection := .ended .failed none (some e.message), state := s }
  | giveUp {written : Bool} {t : σ} (hCancelled : p.cancelled = true)
      (hAt : (p.detection = .listing ∧ t = s) ∨
        ∃ decision, p.detection = .judged (.ok decision) ∧
          (t = s ∨ t = (store.putFlag s plan.detector.key decision.changesDetected).2)) :
      DetectorMove plan store m p s (.abandon written)
        { detection := .ended .cancelled none (some "cancelled"), state := t }

/-- Where a worker looks whether the run is cancelled, before it has a slot. -/
inductive Stage.Looks : Stage → Prop where
  | scheduled : Looks .scheduled
  | waiting : Looks .waiting
  | listening : Looks .listening
  | queued : Looks .queued
  | claiming : Looks .claiming

/-- The steps of the worker at an index. -/
inductive WorkerMove (plan : Plan) (store : Store σ) (m : Moment) (p : Progress) (s : σ) (i : Nat)
    (w : Worker) : Action → Turn → Prop where
  | cancel (hAt : w.stage.Looks) (hCancelled : p.cancelled = true) :
      WorkerMove plan store m p s i w (.work i) (p.goTo (.finishing .cancelled false))
  | wait (hAt : w.stage = .scheduled) (hGated : w.gated = true) (hCancelled : p.cancelled = false) :
      WorkerMove plan store m p s i w (.work i) (p.goTo .waiting)
  | bypass (hAt : w.stage = .scheduled) (hGated : w.gated = false)
      (hCancelled : p.cancelled = false) :
      WorkerMove plan store m p s i w (.work i) (p.goTo .queued)
  | listen (hAt : w.stage = .waiting) (hCancelled : p.cancelled = false) :
      WorkerMove plan store m p s i w (.work i) (p.goTo .listening)
  | reach (hAt : w.stage = .listening) (hReady : p.detection.signal = .ready) :
      WorkerMove plan store m p s i w (.work i) (p.goTo .atGate)
  | lose (hAt : w.stage = .listening) (hFailed : p.detection.signal = .failed) :
      WorkerMove plan store m p s i w (.work i) (p.goTo (.finishing .detectionFailed false))
  | heed (hAt : w.stage = .listening) (hGivenUp : p.detection.signal = .cancelled) :
      WorkerMove plan store m p s i w (.work i) (p.goTo (.finishing .cancelled false))
  | proceed (hAt : w.stage = .atGate)
      (hAnswer : store.check s plan.detector.key = .ok .proceed) :
      WorkerMove plan store m p s i w (.work i) (p.goTo .queued)
  | skip (hAt : w.stage = .atGate) (hAnswer : store.check s plan.detector.key = .ok .skip) :
      WorkerMove plan store m p s i w (.work i) (p.goTo (.finishing .skipped false))
  | miss {e : Error} (hAt : w.stage = .atGate)
      (hAnswer : store.check s plan.detector.key = .error e) :
      WorkerMove plan store m p s i w (.work i) (p.goTo (.finishing (.unavailable e) false))
  | unlimited (hAt : w.stage = .queued) (hFree : p.free = none) :
      WorkerMove plan store m p s i w (.work i) (p.goTo .admitted)
  | claim (hAt : w.stage = .queued) (hCancelled : p.cancelled = false) (hFree : p.free ≠ none) :
      WorkerMove plan store m p s i w (.work i) (p.goTo .claiming)
  | secure {free : Nat} (hAt : w.stage = .claiming) (hFree : p.free = some (free + 1)) :
      WorkerMove plan store m p s i w (.work i) { stage := .admitted, free := some free }
  | withdraw (hAt : w.stage = .admitted) (hCancelled : p.cancelled = true) :
      WorkerMove plan store m p s i w (.work i) (p.goTo (.finishing .cancelled true))
  | start (hAt : w.stage = .admitted) (hCancelled : p.cancelled = false) :
      WorkerMove plan store m p s i w (.work i) (p.goTo .starting)
  | enter (hAt : w.stage = .starting) :
      WorkerMove plan store m p s i w (.work i)
        { p.goTo (.running m.instant m.elapsed) with
          event := some (.jobStarted w.job.id w.job.name m.instant) }
  | leave {startedAt : Timestamp} {since : Nat} {result : Except Error TaskResult}
      (hAt : w.stage = .running startedAt since) :
      WorkerMove plan store m p s i w (.returned i result)
        (p.goTo (.finishing (.ofResult startedAt (m.elapsed - since) result) true))
  | finish {ending : Ending} {holdsSlot : Bool} (hAt : w.stage = .finishing ending holdsSlot) :
      WorkerMove plan store m p s i w (.work i)
        { stage := .done (jobReport w ending m.instant)
          free := if holdsSlot then p.free.map (· + 1) else p.free
          event := some (.jobCompleted w.job.id w.job.name ending.outcome ending.exitCode
            ending.duration) }

/-- What an action does to a run and its store. -/
inductive Change (plan : Plan) (store : Store σ) (m : Moment) (p : Progress) (s : σ) :
    Action → Progress × σ → Prop where
  | advanced {p' : Progress} (move : Advance plan m p p') : Change plan store m p s .advance (p', s)
  | cancelled (hCancelled : p.cancelled = false) :
      Change plan store m p s .cancel ({ p with cancelled := true }, s)
  | found {action : Action} {f : Finding σ} (hActive : p.phase = .active)
      (move : DetectorMove plan store m p s action f) :
      Change plan store m p s action (find plan m p f)
  | turned {action : Action} {i : Nat} {w : Worker} {t : Turn} (hActive : p.phase = .active)
      (hWorker : p.workers[i]? = some w) (move : WorkerMove plan store m p s i w action t) :
      Change plan store m p s action (take plan m i t p, s)

variable {plan : Plan} {store : Store σ} {m : Moment} {p : Progress} {s : σ}

theorem Advance.of_advance {p' : Progress} (h : advance plan m p = some p') :
    Advance plan m p p' := by
  unfold advance at h
  split at h
  case h_1 hPhase => cases h; exact .begin hPhase
  case h_2 hPhase =>
    cases h
    refine .expand hPhase ?_ ?_
    · split <;> simp
    · split
      · next hBeyond => simpa using (Option.any_eq_true _ _).mp hBeyond
      · next hBeyond => simpa using fun n hFree => by simpa [hFree] using hBeyond
  case h_3 hPhase =>
    split at h
    · next hEnded =>
        split at h
        · next hDone => cases h; exact .join hPhase hEnded (by simpa using hDone)
        · cases h
    · cases h
  case h_4 hPhase => cases h; exact .close hPhase
  case h_5 hPhase => cases h; exact .complete hPhase
  case h_6 => cases h
  case h_7 => cases h

theorem DetectorMove.of_detect {f : Finding σ} (h : detect plan store m p s = some f) :
    DetectorMove plan store m p s .detect f := by
  unfold detect at h
  split at h
  case h_1 hAt =>
    split at h
    · next hCancelled => cases h; exact .stop hAt hCancelled
    · next hCancelled => cases h; exact .list hAt (by simpa using hCancelled)
  case h_2 => cases h
  case h_3 hAt => cases h; exact .write hAt
  case h_4 hAt => cases h; exact .pass hAt
  case h_5 hAt => cases h; exact .announce hAt
  case h_6 hAt => cases h; exact .announceError hAt
  case h_7 hAt => cases h; exact .release hAt
  case h_8 hAt => cases h; exact .fail hAt
  case h_9 => cases h

theorem DetectorMove.of_listed {diff : Except Error (List String)} {f : Finding σ}
    (h : listed plan diff p s = some f) : DetectorMove plan store m p s (.listed diff) f := by
  unfold listed at h
  split at h
  · next hAt => cases h; exact .judge hAt
  · cases h

theorem DetectorMove.of_abandon {written : Bool} {f : Finding σ}
    (h : abandon plan store written p s = some f) :
    DetectorMove plan store m p s (.abandon written) f := by
  simp only [abandon] at h
  split at h
  · next hCancelled =>
      split at h
      · next hAt =>
          split at h
          · cases h
          · cases h; exact .giveUp hCancelled (.inl ⟨hAt, rfl⟩)
      · next decision hAt =>
          cases h
          refine .giveUp hCancelled (.inr ⟨decision, hAt, ?_⟩)
          split <;> simp
      · cases h
  · cases h

theorem WorkerMove.of_turn? {i : Nat} {w : Worker} {t : Turn}
    (h : turn? m (store.check s plan.detector.key) p w = some t) :
    WorkerMove plan store m p s i w (.work i) t := by
  cases hAt : w.stage <;> simp only [turn?, hAt] at h
  case scheduled =>
      cases hCancelled : p.cancelled <;> cases hGated : w.gated <;>
        simp [hCancelled, hGated] at h <;> subst h
      · exact .bypass hAt hGated hCancelled
      · exact .wait hAt hGated hCancelled
      · exact .cancel (hAt ▸ .scheduled) hCancelled
      · exact .cancel (hAt ▸ .scheduled) hCancelled
  case waiting =>
      cases hCancelled : p.cancelled <;> simp [hCancelled] at h <;> subst h
      · exact .listen hAt hCancelled
      · exact .cancel (hAt ▸ .waiting) hCancelled
  case listening =>
      cases hSignal : p.detection.signal <;> simp only [hSignal, Signal.next] at h
      · split at h
        · next hCancelled => cases h; exact .cancel (hAt ▸ .listening) hCancelled
        · cases h
      · cases h; exact .reach hAt hSignal
      · cases h; exact .lose hAt hSignal
      · cases h; exact .heed hAt hSignal
  case atGate =>
      cases hAnswer : store.check s plan.detector.key with
      | error e => rw [hAnswer] at h; cases h; exact .miss hAt hAnswer
      | ok verdict =>
          rw [hAnswer] at h
          cases h
          cases verdict with
          | proceed => exact .proceed hAt hAnswer
          | skip => exact .skip hAt hAnswer
  case queued =>
      by_cases hFree : p.free = none
      · simp [hFree] at h
        subst h
        exact .unlimited hAt hFree
      · cases hCancelled : p.cancelled <;> simp [hFree, hCancelled] at h <;> subst h
        · exact .claim hAt hCancelled hFree
        · exact .cancel (hAt ▸ .queued) hCancelled
  case claiming =>
      split at h
      · next hFree => cases h; exact .secure hAt hFree
      · split at h
        · next hCancelled => cases h; exact .cancel (hAt ▸ .claiming) hCancelled
        · cases h
  case admitted =>
      cases hCancelled : p.cancelled <;> simp [hCancelled] at h <;> subst h
      · exact .start hAt hCancelled
      · exact .withdraw hAt hCancelled
  case starting => cases h; exact .enter hAt
  case running => cases h
  case finishing => cases h; exact .finish hAt
  case done => cases h

theorem WorkerMove.of_returned {i : Nat} {w : Worker} {result : Except Error TaskResult} {t : Turn}
    (h : returned m result p w = some t) :
    WorkerMove plan store m p s i w (.returned i result) t := by
  unfold returned at h
  split at h
  · next hAt => cases h; exact .leave hAt
  · cases h

theorem phase_of_isActive (h : p.isActive = true) : p.phase = .active := by
  unfold isActive at h
  split at h
  · assumption
  · cases h

/-- Every action that can be taken is one of the steps above. -/
theorem Change.of_act? {action : Action} {c : Progress × σ}
    (h : p.act? plan store m s action = some c) : Change plan store m p s action c := by
  cases action with
  | advance =>
      obtain ⟨p', hMove, rfl⟩ := Option.map_eq_some_iff.mp h
      exact .advanced (.of_advance hMove)
  | cancel =>
      simp only [act?] at h
      split at h
      · cases h
      · next hCancelled => cases h; exact .cancelled (by simpa using hCancelled)
  | listed diff =>
      obtain ⟨hActive, h⟩ := Option.ite_none_right_eq_some.mp h
      obtain ⟨f, hMove, rfl⟩ := Option.map_eq_some_iff.mp h
      exact .found (phase_of_isActive hActive) (.of_listed hMove)
  | abandon written =>
      obtain ⟨hActive, h⟩ := Option.ite_none_right_eq_some.mp h
      obtain ⟨f, hMove, rfl⟩ := Option.map_eq_some_iff.mp h
      exact .found (phase_of_isActive hActive) (.of_abandon hMove)
  | detect =>
      obtain ⟨hActive, h⟩ := Option.ite_none_right_eq_some.mp h
      obtain ⟨f, hMove, rfl⟩ := Option.map_eq_some_iff.mp h
      exact .found (phase_of_isActive hActive) (.of_detect hMove)
  | work i =>
      obtain ⟨hActive, h⟩ := Option.ite_none_right_eq_some.mp h
      obtain ⟨t, hTurn, rfl⟩ := Option.map_eq_some_iff.mp h
      obtain ⟨w, hWorker, hMove⟩ := Option.bind_eq_some_iff.mp hTurn
      exact .turned (phase_of_isActive hActive) hWorker (.of_turn? hMove)
  | returned i result =>
      obtain ⟨hActive, h⟩ := Option.ite_none_right_eq_some.mp h
      obtain ⟨t, hTurn, rfl⟩ := Option.map_eq_some_iff.mp h
      obtain ⟨w, hWorker, hMove⟩ := Option.bind_eq_some_iff.mp hTurn
      exact .turned (phase_of_isActive hActive) hWorker (.of_returned hMove)

end ChangeGate.Run
