import ChangeGate.Proofs.Run.Course

/-! Where the detector of a run stands, and how it came there. What it returned goes back to a state
that the run passed: the paths had been listed, the decision on them was taken, and the write to the
store was tried in that state. Only that write changes the store, apart from what others do. -/

namespace ChangeGate.Run

open Progress

variable {σ : Type} {plan : Plan} {store : Store σ} {world : World σ}
  {start c : Progress × σ} {actions : List Action}

/-- What the detector of a run returned: the run passed a state in which the decision on the listed
paths was taken, trying to record it there gave this result, and the run went on from the store that
this left. -/
structure Detected (plan : Plan) (store : Store σ) (world : World σ) (start : Progress × σ)
    (actions : List Action) (c : Progress × σ) (result : Except Error Decision)
    (diff : Except Error (List String)) (q : Progress) (t : σ) : Prop where
  passed : Passes plan store world start actions c (q, t)
  listed : Action.listed diff ∈ actions
  answered : world.listing diff
  judged : q.detection = .judged (plan.detector.evaluate diff)
  result_eq : (plan.detector.detect store t diff).1 = result
  recorded : ∃ q', q'.detection = .recorded result ∧
    Passes plan store world start actions c (q', (plan.detector.detect store t diff).2)

/-- How the detector of a run came to where it stands. -/
def Found (plan : Plan) (store : Store σ) (world : World σ) (start : Progress × σ)
    (actions : List Action) (c : Progress × σ) : Detection → Prop
  | .idle => True
  | .listing => True
  | .judged result =>
      ∃ diff, Action.listed diff ∈ actions ∧ world.listing diff ∧
        plan.detector.evaluate diff = result
  | .recorded result => ∃ diff q t, Detected plan store world start actions c result diff q t
  | .announced result => ∃ diff q t, Detected plan store world start actions c result diff q t
  | .ended .ready decision error =>
      ∃ d diff q t, Detected plan store world start actions c (.ok d) diff q t ∧
        decision = some d ∧ error = none
  | .ended .failed decision error =>
      ∃ e diff q t, Detected plan store world start actions c (.error e) diff q t ∧
        decision = none ∧ error = some e.message
  | .ended .cancelled decision error =>
      c.1.cancelled = true ∧ decision = none ∧ error = some "cancelled"
  | .ended .pending _ _ => False

/-- Where the detector ends if it is not given up, going by what it returned. -/
def concluded : Except Error Decision → Detection
  | .ok decision => .ended .ready (some decision) none
  | .error e => .ended .failed none (some e.message)

/-- A detector that has ended was given up in a cancelled run, or returned something. -/
theorem Found.concluded {signal : Signal} {decision : Option Decision} {error : Option String}
    (found : Found plan store world start actions c (.ended signal decision error)) :
    (c.1.cancelled = true ∧
      (Detection.ended signal decision error) = .ended .cancelled none (some "cancelled")) ∨
    ∃ result diff q t, Detected plan store world start actions c result diff q t ∧
      Detection.ended signal decision error = concluded result := by
  cases signal with
  | pending => cases found
  | ready =>
      obtain ⟨d, diff, q, t, detected, rfl, rfl⟩ := found
      exact .inr ⟨.ok d, diff, q, t, detected, rfl⟩
  | failed =>
      obtain ⟨e, diff, q, t, detected, rfl, rfl⟩ := found
      exact .inr ⟨.error e, diff, q, t, detected, rfl⟩
  | cancelled =>
      obtain ⟨hCancelled, rfl, rfl⟩ := found
      exact .inl ⟨hCancelled, rfl⟩

/-- What has been found out stays so while the run goes on. -/
theorem Detected.mono {actions' : List Action} {c' : Progress × σ}
    {result : Except Error Decision} {diff : Except Error (List String)} {q : Progress} {t : σ}
    (detected : Detected plan store world start actions c result diff q t)
    (ext : Extends plan store world start actions c actions' c') :
    Detected plan store world start actions' c' result diff q t :=
  { detected with
    passed := ext.passes _ detected.passed
    listed := ext.actions_subset detected.listed
    recorded := by
      obtain ⟨q', hAt, passed⟩ := detected.recorded
      exact ⟨q', hAt, ext.passes _ passed⟩ }

theorem Found.mono {actions' : List Action} {c' : Progress × σ} {detection : Detection}
    (found : Found plan store world start actions c detection)
    (ext : Extends plan store world start actions c actions' c') :
    Found plan store world start actions' c' detection := by
  cases detection with
  | idle => trivial
  | listing => trivial
  | judged result =>
      obtain ⟨diff, hListed, hRest⟩ := found
      exact ⟨diff, ext.actions_subset hListed, hRest⟩
  | recorded result =>
      obtain ⟨diff, q, t, detected⟩ := found
      exact ⟨diff, q, t, detected.mono ext⟩
  | announced result =>
      obtain ⟨diff, q, t, detected⟩ := found
      exact ⟨diff, q, t, detected.mono ext⟩
  | ended signal decision error =>
      cases signal with
      | pending => exact found
      | ready =>
          obtain ⟨d, diff, q, t, detected, hEnd⟩ := found
          exact ⟨d, diff, q, t, detected.mono ext, hEnd⟩
      | failed =>
          obtain ⟨e, diff, q, t, detected, hEnd⟩ := found
          exact ⟨e, diff, q, t, detected.mono ext, hEnd⟩
      | cancelled => exact ⟨ext.cancelled found.1, found.2⟩

/-- A detector that has taken its decision returns what comes of writing it. -/
theorem detect_of_evaluate_ok (store : Store σ) (t : σ) {d : Detector}
    {diff : Except Error (List String)} {decision : Decision}
    (h : d.evaluate diff = .ok decision) :
    d.detect store t diff =
      ((store.putFlag t d.key decision.changesDetected).1.map fun _ => decision,
        (store.putFlag t d.key decision.changesDetected).2) := by
  simp only [Detector.detect, h]

theorem detect_of_evaluate_error (store : Store σ) (t : σ) {d : Detector}
    {diff : Except Error (List String)} {e : Error} (h : d.evaluate diff = .error e) :
    d.detect store t diff = (.error e, t) := by
  simp only [Detector.detect, h]

/-- A decision that was recorded is the one that the paths call for, and its write succeeded. -/
theorem written_of_detect_ok {d : Detector} {t : σ} {diff : Except Error (List String)}
    {decision : Decision} (h : (d.detect store t diff).1 = .ok decision) :
    d.evaluate diff = .ok decision ∧
      (store.putFlag t d.key decision.changesDetected).1 = .ok () := by
  cases hEvaluate : d.evaluate diff with
  | error e =>
      rw [detect_of_evaluate_error store t hEvaluate] at h
      cases h
  | ok decision' =>
      rw [detect_of_evaluate_ok store t hEvaluate] at h
      cases hPut : (store.putFlag t d.key decision'.changesDetected).1 with
      | error e =>
          rw [hPut] at h
          cases h
      | ok =>
          rw [hPut] at h
          cases h
          exact ⟨rfl, hPut⟩

/-- The detector of a run stands where its own steps led it. -/
theorem Runs.found {s₀ : σ} (run : Runs plan store world (Progress.start plan, s₀) actions c) :
    Found plan store world (Progress.start plan, s₀) actions c c.1.detection := by
  induction run with
  | start => trivial
  | @act actions p s c prior action m answers taken ih =>
      have ext : Extends plan store world (Progress.start plan, s₀) actions (p, s)
          (actions ++ [action]) c := .act answers taken
      have hKept := ih.mono ext
      cases Change.of_act? taken with
      | advanced move => cases move <;> exact hKept
      | cancelled hCancelled => exact hKept
      | turned hActive hWorker move => exact hKept
      | found hActive move =>
          cases move with
          | stop hAt hCancelled => exact ⟨hCancelled, rfl, rfl⟩
          | list hAt hCancelled => trivial
          | judge hAt => exact ⟨_, by simp, answers, rfl⟩
          | @write decision hAt =>
              rw [hAt] at ih
              obtain ⟨diff, hListed, hAnswered, hEvaluate⟩ := ih
              have hDetect := detect_of_evaluate_ok store s hEvaluate
              exact ⟨diff, p, s, ext.passes _ prior.passes, ext.actions_subset hListed, hAnswered,
                by rw [hAt, hEvaluate], by rw [hDetect],
                _, rfl, by rw [hDetect]; exact (prior.act .detect m answers taken).passes⟩
          | @pass e hAt =>
              rw [hAt] at ih
              obtain ⟨diff, hListed, hAnswered, hEvaluate⟩ := ih
              have hDetect := detect_of_evaluate_error store s hEvaluate
              exact ⟨diff, p, s, ext.passes _ prior.passes, ext.actions_subset hListed, hAnswered,
                by rw [hAt, hEvaluate], by rw [hDetect],
                _, rfl, by rw [hDetect]; exact (prior.act .detect m answers taken).passes⟩
          | announce hAt => rw [hAt] at hKept; exact hKept
          | announceError hAt => rw [hAt] at hKept; exact hKept
          | @release decision hAt =>
              rw [hAt] at hKept
              obtain ⟨diff, q, t, detected⟩ := hKept
              exact ⟨decision, diff, q, t, detected, rfl, rfl⟩
          | @fail e hAt =>
              rw [hAt] at hKept
              obtain ⟨diff, q, t, detected⟩ := hKept
              exact ⟨e, diff, q, t, detected, rfl, rfl⟩
          | giveUp hCancelled hAt => exact ⟨hCancelled, rfl, rfl⟩
  | others prior change ih => exact ih.mono (.others change)

/-- Whether the detector has tried to write to the store, or has been given up. -/
def Detection.tried : Detection → Bool
  | .idle => false
  | .listing => false
  | .judged _ => false
  | _ => true

/-- What others have done to a store between two moments. -/
def ByOthers (world : World σ) : σ → σ → Prop :=
  Relation.ReflTransGen fun s t => ∃ p, world.others p s t

theorem Change.tried_mono {p : Progress} {s : σ} {m : Moment} {action : Action}
    (change : Change plan store m p s action c) (h : p.detection.tried = true) :
    c.1.detection.tried = true := by
  cases change with
  | advanced move => cases move <;> exact h
  | cancelled hCancelled => exact h
  | turned hActive hWorker move => exact h
  | found hActive move => cases move <;> simp_all [Detection.tried]

/-- A step changes the store only where the detector tries its write, or is given up over it. -/
theorem Change.store_eq {p : Progress} {s : σ} {m : Moment} {action : Action}
    (change : Change plan store m p s action c)
    (h : p.detection.tried = true ∨ c.1.detection.tried = false) : c.2 = s := by
  cases change with
  | advanced move => rfl
  | cancelled hCancelled => rfl
  | turned hActive hWorker move => rfl
  | found hActive move =>
      cases move with
      | giveUp hCancelled hAt =>
          rcases hAt with ⟨hAt, -⟩ | ⟨decision, hAt, -⟩ <;> simp [hAt, Detection.tried] at h
      | _ => simp_all [Detection.tried]

/-- As long as the detector has not tried its write, only others have changed the store. -/
theorem Runs.byOthers_of_untried (run : Runs plan store world start actions c)
    (h : c.1.detection.tried = false) : ByOthers world start.2 c.2 := by
  induction run with
  | start => exact .refl
  | @act actions p s c prior action m answers taken ih =>
      have change := Change.of_act? taken
      have hPrior : p.detection.tried = false := by
        cases hTried : p.detection.tried with
        | false => rfl
        | true => rw [change.tried_mono hTried] at h; cases h
      rw [change.store_eq (.inr h)]
      exact ih hPrior
  | others prior change ih => exact (ih h).tail ⟨_, change⟩

/-- Once the detector has tried its write, only others change the store. -/
theorem Runs.byOthers_of_tried (run : Runs plan store world start actions c)
    (h : start.1.detection.tried = true) :
    c.1.detection.tried = true ∧ ByOthers world start.2 c.2 := by
  induction run with
  | start => exact ⟨h, .refl⟩
  | act prior action m answers taken ih =>
      have change := Change.of_act? taken
      refine ⟨change.tried_mono ih.1, ?_⟩
      rw [change.store_eq (.inl ih.1)]
      exact ih.2
  | others prior change ih => exact ⟨ih.1, ih.2.tail ⟨_, change⟩⟩

section

variable {result : Except Error Decision} {diff : Except Error (List String)} {q : Progress} {t : σ}

theorem Detected.byOthers_before
    (detected : Detected plan store world start actions c result diff q t) :
    ByOthers world start.2 t := by
  obtain ⟨before, after, -, hBefore, -⟩ := detected.passed
  exact hBefore.byOthers_of_untried (by rw [detected.judged]; rfl)

theorem Detected.byOthers_after
    (detected : Detected plan store world start actions c result diff q t) :
    ByOthers world (plan.detector.detect store t diff).2 c.2 := by
  obtain ⟨q', hAt, before, after, -, -, hAfter⟩ := detected.recorded
  exact (hAfter.byOthers_of_tried (by rw [hAt]; rfl)).2

end

end ChangeGate.Run
