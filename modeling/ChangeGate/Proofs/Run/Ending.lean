import ChangeGate.Proofs.Run.Detection

/-! Why the jobs of a run end as they do. Every ending goes back to something that the run shows: a
request to cancel, a detector that failed, an answer of the gate after the detector was ready, or
what the body returned. -/

namespace ChangeGate.Run

open Progress

variable {σ : Type} {plan : Plan} {store : Store σ} {world : World σ}
  {start c c' : Progress × σ} {actions actions' : List Action}

/-- The gate was asked once the detector was ready, and this was its answer. -/
def Asked (plan : Plan) (store : Store σ) (world : World σ) (start : Progress × σ)
    (actions : List Action) (c : Progress × σ) (answer : Except Error Verdict) : Prop :=
  ∃ q t, Passes plan store world start actions c (q, t) ∧ q.detection.signal = .ready ∧
    store.check t plan.detector.key = answer

/-- A job may start its body: it does not wait for the decision, or the gate let it pass. -/
def Cleared (plan : Plan) (store : Store σ) (world : World σ) (start : Progress × σ)
    (actions : List Action) (c : Progress × σ) (w : Worker) : Prop :=
  w.gated = true → Asked plan store world start actions c (.ok .proceed)

/-- What brings about an ending of a job. -/
inductive Due (plan : Plan) (store : Store σ) (world : World σ) (start : Progress × σ)
    (actions : List Action) (c : Progress × σ) (w : Worker) : Ending → Prop where
  | cancelled (hCancelled : c.1.cancelled = true) :
      Due plan store world start actions c w .cancelled
  | detectionFailed (hGated : w.gated = true) (hFailed : c.1.detection.signal = .failed) :
      Due plan store world start actions c w .detectionFailed
  | unavailable {e : Error} (hGated : w.gated = true)
      (asked : Asked plan store world start actions c (.error e)) :
      Due plan store world start actions c w (.unavailable e)
  | skipped (hGated : w.gated = true)
      (asked : Asked plan store world start actions c (.ok .skip)) :
      Due plan store world start actions c w .skipped
  | returned {startedAt : Timestamp} {duration : Nat} {result : Except Error TaskResult}
      (cleared : Cleared plan store world start actions c w)
      (answered : world.body (plan.context w.job) result) :
      Due plan store world start actions c w (.ofResult startedAt duration result)

/-- What is so of a worker at each stage. -/
def Sound (plan : Plan) (store : Store σ) (world : World σ) (start : Progress × σ)
    (actions : List Action) (c : Progress × σ) (w : Worker) : Stage → Prop
  | .scheduled => True
  | .waiting => w.gated = true
  | .listening => w.gated = true
  | .atGate => w.gated = true ∧ c.1.detection.signal = .ready
  | .queued => Cleared plan store world start actions c w
  | .claiming => Cleared plan store world start actions c w
  | .admitted => Cleared plan store world start actions c w
  | .starting => Cleared plan store world start actions c w
  | .running .. => Cleared plan store world start actions c w
  | .finishing ending _ => Due plan store world start actions c w ending
  | .done report => ∃ ending completedAt, Due plan store world start actions c w ending ∧
      report = jobReport w ending completedAt

section

variable (ext : Extends plan store world start actions c actions' c')

include ext

theorem Asked.mono {answer : Except Error Verdict}
    (asked : Asked plan store world start actions c answer) :
    Asked plan store world start actions' c' answer := by
  obtain ⟨q, t, passed, hRest⟩ := asked
  exact ⟨q, t, ext.passes _ passed, hRest⟩

omit ext in
theorem Asked.ready {answer : Except Error Verdict}
    (asked : Asked plan store world start actions c answer) : c.1.detection.signal = .ready := by
  obtain ⟨q, t, passed, hReady, -⟩ := asked
  obtain ⟨before, -, ext⟩ := passed.extends
  exact ext.signal hReady nofun

theorem Cleared.mono {w : Worker} (cleared : Cleared plan store world start actions c w) :
    Cleared plan store world start actions' c' w :=
  fun hGated => (cleared hGated).mono ext

theorem Due.mono {w : Worker} {ending : Ending}
    (due : Due plan store world start actions c w ending) :
    Due plan store world start actions' c' w ending := by
  cases due with
  | cancelled hCancelled => exact .cancelled (ext.cancelled hCancelled)
  | detectionFailed hGated hFailed => exact .detectionFailed hGated (ext.signal hFailed nofun)
  | unavailable hGated asked => exact .unavailable hGated (asked.mono ext)
  | skipped hGated asked => exact .skipped hGated (asked.mono ext)
  | returned cleared answered => exact .returned (cleared.mono ext) answered

theorem Sound.mono {w : Worker} {stage : Stage}
    (sound : Sound plan store world start actions c w stage) :
    Sound plan store world start actions' c' w stage := by
  cases stage with
  | scheduled => trivial
  | waiting => exact sound
  | listening => exact sound
  | atGate => exact ⟨sound.1, ext.signal sound.2 nofun⟩
  | finishing ending holdsSlot => exact Due.mono ext sound
  | done report =>
      obtain ⟨ending, completedAt, due, rfl⟩ := sound
      exact ⟨ending, completedAt, due.mono ext, rfl⟩
  | _ => exact Cleared.mono ext sound

end

/-- A body that has returned has succeeded or failed. -/
theorem outcome_of_verdict (result : Except Error TaskResult) :
    (Ending.verdict result).1 = .succeeded ∨ (Ending.verdict result).1 = .failed := by
  cases result with
  | error e => exact .inr rfl
  | ok result =>
      simp only [Ending.verdict]
      cases result.success
      · exact .inr rfl
      · exact .inl rfl

@[simp] theorem outcome_ofResult (startedAt : Timestamp) (duration : Nat)
    (result : Except Error TaskResult) :
    (Ending.ofResult startedAt duration result).outcome = (Ending.verdict result).1 := rfl

/-- A job has a start exactly if its body has succeeded or failed. -/
theorem Due.started_iff {w : Worker} {ending : Ending}
    (due : Due plan store world start actions c w ending) :
    ending.startedAt.isSome = true ↔ ending.outcome = .succeeded ∨ ending.outcome = .failed := by
  cases due with
  | returned cleared answered => exact iff_of_true rfl (outcome_of_verdict _)
  | _ => exact iff_of_false nofun (by rintro (h | h) <;> cases h)

/-- A job is skipped only because the gate said so. -/
theorem Due.skip {w : Worker} {ending : Ending}
    (due : Due plan store world start actions c w ending) (h : ending.outcome = .skipped) :
    w.gated = true ∧ Asked plan store world start actions c (.ok .skip) := by
  cases due with
  | skipped hGated asked => exact ⟨hGated, asked⟩
  | @returned startedAt duration result cleared answered =>
      rcases outcome_of_verdict result with h' | h' <;> simp [h'] at h
  | _ => cases h

/-- A job is cancelled only in a run that is. -/
theorem Due.cancellation {w : Worker} {ending : Ending}
    (due : Due plan store world start actions c w ending) (h : ending.outcome = .cancelled) :
    c.1.cancelled = true := by
  cases due with
  | cancelled hCancelled => exact hCancelled
  | @returned startedAt duration result cleared answered =>
      rcases outcome_of_verdict result with h' | h' <;> simp [h'] at h
  | _ => cases h

/-- What a job may end with does not hang on where its worker stands. -/
theorem Due.of_stage {w : Worker} {stage : Stage} {ending : Ending}
    (due : Due plan store world start actions c w ending) :
    Due plan store world start actions c { w with stage } ending := by
  cases due with
  | cancelled hCancelled => exact .cancelled hCancelled
  | detectionFailed hGated hFailed => exact .detectionFailed hGated hFailed
  | unavailable hGated asked => exact .unavailable hGated asked
  | skipped hGated asked => exact .skipped hGated asked
  | returned cleared answered => exact .returned cleared answered

theorem Sound.of_stage {w : Worker} {stage stage' : Stage}
    (sound : Sound plan store world start actions c w stage) :
    Sound plan store world start actions c { w with stage := stage' } stage := by
  cases stage with
  | finishing ending holdsSlot => exact Due.of_stage sound
  | done report =>
      obtain ⟨ending, completedAt, due, hReport⟩ := sound
      exact ⟨ending, completedAt, due.of_stage, hReport⟩
  | _ => exact sound

/-- The detector reports a cancellation only in a run that is cancelled. -/
theorem Found.cancelled_of_signal (found : Found plan store world start actions c c.1.detection)
    (h : c.1.detection.signal = .cancelled) : c.1.cancelled = true := by
  cases hAt : c.1.detection with
  | ended signal decision error =>
      rw [hAt] at h found
      cases h
      exact found.1
  | _ => simp [hAt, Detection.signal] at h

/-- A step of a worker leaves it at a stage that has its reasons, if it came from such a stage. -/
theorem WorkerMove.sound {p : Progress} {s : σ} {m : Moment} {i : Nat} {w : Worker}
    {action : Action} {t : Turn} (move : WorkerMove plan store m p s i w action t)
    (hWorker : p.workers[i]? = some w) (answers : world.Answers plan p action)
    (found : Found plan store world start actions (p, s) p.detection)
    (passed : Passes plan store world start actions' c' (p, s))
    (ext : Extends plan store world start actions (p, s) actions' c')
    (sound : Sound plan store world start actions (p, s) w w.stage) :
    Sound plan store world start actions' c' w t.stage := by
  have kept := sound.mono ext
  cases move with
  | cancel hAt hCancelled => exact .cancelled (ext.cancelled hCancelled)
  | withdraw hAt hCancelled => exact .cancelled (ext.cancelled hCancelled)
  | wait hAt hGated hCancelled => exact hGated
  | bypass hAt hGated hCancelled => exact fun h => absurd (h.symm.trans hGated) nofun
  | listen hAt hCancelled => rw [hAt] at kept; exact kept
  | reach hAt hReady => rw [hAt] at kept; exact ⟨kept, ext.signal hReady nofun⟩
  | lose hAt hFailed => rw [hAt] at kept; exact .detectionFailed kept (ext.signal hFailed nofun)
  | heed hAt hGivenUp => exact .cancelled (ext.cancelled (found.cancelled_of_signal hGivenUp))
  | proceed hAt hAnswer =>
      rw [hAt] at sound
      exact fun _ => ⟨p, s, passed, sound.2, hAnswer⟩
  | skip hAt hAnswer =>
      rw [hAt] at sound
      exact .skipped sound.1 ⟨p, s, passed, sound.2, hAnswer⟩
  | miss hAt hAnswer =>
      rw [hAt] at sound
      exact .unavailable sound.1 ⟨p, s, passed, sound.2, hAnswer⟩
  | unlimited hAt hFree => rw [hAt] at kept; exact kept
  | claim hAt hCancelled => rw [hAt] at kept; exact kept
  | secure hAt hFree => rw [hAt] at kept; exact kept
  | start hAt hCancelled => rw [hAt] at kept; exact kept
  | enter hAt => rw [hAt] at kept; exact kept
  | leave hAt =>
      rw [hAt] at kept
      exact .returned kept (answers w hWorker)
  | finish hAt =>
      rw [hAt] at kept
      exact ⟨_, _, kept, rfl⟩

/-- Every worker of a run stands where it has reasons to stand. -/
theorem Runs.sound {s₀ : σ} (run : Runs plan store world (Progress.start plan, s₀) actions c) :
    ∀ w ∈ c.1.workers,
      Sound plan store world (Progress.start plan, s₀) actions c w w.stage := by
  induction run with
  | start =>
      intro w hMem
      obtain ⟨job, -, rfl⟩ := List.mem_map.mp hMem
      trivial
  | others prior change ih => exact fun w hMem => (ih w hMem).mono (.others change)
  | @act actions p s c prior action m answers taken ih =>
      have ext : Extends plan store world (Progress.start plan, s₀) actions (p, s)
          (actions ++ [action]) c := .act answers taken
      intro w' hMem
      cases Change.of_act? taken with
      | advanced move => cases move <;> exact (ih w' hMem).mono ext
      | cancelled hCancelled => exact (ih w' hMem).mono ext
      | found hActive move => exact (ih w' hMem).mono ext
      | turned hActive hWorker move =>
          rcases mem_of_take hWorker hMem with rfl | hMem
          · exact .of_stage (move.sound hWorker answers prior.found
              (ext.passes _ prior.passes) ext (ih _ (List.mem_of_getElem? hWorker)))
          · exact (ih w' hMem).mono ext

/-- A job that has ended did so for a reason, and its report says how. -/
theorem Runs.due_of_done {s₀ : σ}
    (run : Runs plan store world (Progress.start plan, s₀) actions c) {w : Worker}
    (hMem : w ∈ c.1.workers) {report : JobReport} (hDone : w.stage = .done report) :
    ∃ ending completedAt,
      Due plan store world (Progress.start plan, s₀) actions c w ending ∧
        report = jobReport w ending completedAt := by
  have sound := run.sound w hMem
  rw [hDone] at sound
  exact sound

end ChangeGate.Run
