import ChangeGate.Proofs.Run.Course

/-! Runs end. Every step uses up one of the steps that the run as a whole, its detector, its workers
and a request to cancel have left, so a run takes at most as many steps as it has at the start. -/

namespace ChangeGate.Run

open Progress

variable {σ : Type} {plan : Plan} {store : Store σ} {world : World σ}
  {start c : Progress × σ} {actions : List Action} {m : Moment} {p : Progress} {s : σ}

/-- The greatest number of steps that a worker may still take. -/
def Stage.stepsLeft : Stage → Nat
  | .scheduled => 10
  | .waiting => 9
  | .listening => 8
  | .atGate => 7
  | .queued => 6
  | .claiming => 5
  | .admitted => 4
  | .starting => 3
  | .running .. => 2
  | .finishing .. => 1
  | .done _ => 0

/-- The greatest number of steps that the detector may still take. -/
def Detection.stepsLeft : Detection → Nat
  | .idle => 5
  | .listing => 4
  | .judged _ => 3
  | .recorded _ => 2
  | .announced _ => 1
  | .ended .. => 0

/-- The greatest number of steps that the run as a whole may still take. -/
def Phase.stepsLeft : Phase → Nat
  | .created => 5
  | .begun => 4
  | .active => 3
  | .joined _ => 2
  | .closing _ => 1
  | .completed _ => 0
  | .aborted => 0

/-- The steps that workers have left, all together. -/
def stepsOf : List Worker → Nat
  | [] => 0
  | w :: rest => w.stage.stepsLeft + stepsOf rest

/-- The greatest number of steps that a run may still take, a request to cancel included. -/
def Progress.stepsLeft (p : Progress) : Nat :=
  p.phase.stepsLeft + p.detection.stepsLeft + stepsOf p.workers + (!p.cancelled).toNat

theorem stepsOf_append (first second : List Worker) :
    stepsOf (first ++ second) = stepsOf first + stepsOf second := by
  induction first with
  | nil => simp [stepsOf]
  | cons w rest ih =>
      rw [List.cons_append, stepsOf, stepsOf, ih]
      omega

theorem Advance.stepsLeft_lt {p' : Progress} (move : Advance plan m p p') :
    p'.stepsLeft < p.stepsLeft := by
  cases move with
  | begin hPhase => simp [Progress.stepsLeft, hPhase, Phase.stepsLeft]
  | expand hPhase hNext =>
      rcases hNext with rfl | rfl <;> simp [Progress.stepsLeft, hPhase, Phase.stepsLeft]
  | join hPhase hEnded hDone => simp [Progress.stepsLeft, hPhase, Phase.stepsLeft]
  | close hPhase => simp [Progress.stepsLeft, hPhase, Phase.stepsLeft]
  | complete hPhase => simp [Progress.stepsLeft, hPhase, Phase.stepsLeft]

theorem DetectorMove.stepsLeft_lt {action : Action} {f : Finding σ}
    (move : DetectorMove plan store m p s action f) :
    f.detection.stepsLeft < p.detection.stepsLeft := by
  cases move with
  | giveUp hCancelled hAt =>
      rcases hAt with ⟨hAt, -⟩ | ⟨decision, hAt, -⟩ <;> simp [hAt, Detection.stepsLeft]
  | _ => simp [*, Detection.stepsLeft]

theorem WorkerMove.stepsLeft_lt {i : Nat} {w : Worker} {action : Action} {t : Turn}
    (move : WorkerMove plan store m p s i w action t) :
    t.stage.stepsLeft < w.stage.stepsLeft := by
  cases move with
  | cancel hAt hCancelled =>
      generalize w.stage = stage at hAt
      cases hAt <;> simp [goTo, Stage.stepsLeft]
  | _ => simp [*, goTo, Stage.stepsLeft]

/-- Every step uses up one of those that are left. -/
theorem Change.stepsLeft_lt {action : Action} (change : Change plan store m p s action c) :
    c.1.stepsLeft < p.stepsLeft := by
  cases change with
  | advanced move => exact move.stepsLeft_lt
  | cancelled hCancelled => simp [Progress.stepsLeft, hCancelled]
  | found hActive move =>
      have hDetector := move.stepsLeft_lt
      simp only [Progress.stepsLeft, phase_find, detection_find, workers_find, cancelled_find]
      omega
  | @turned _ i w t hActive hWorker move =>
      have hMoved := move.stepsLeft_lt
      obtain ⟨before, after, hBefore, hAfter⟩ := workers_of_take plan m t hWorker
      simp only [Progress.stepsLeft, phase_take, detection_take, cancelled_take, hAfter, hBefore,
        stepsOf_append, stepsOf]
      omega

/-- A run has taken no more steps than it has used up, whatever others do to the store. -/
theorem Runs.length_add_stepsLeft_le (run : Runs plan store world start actions c) :
    actions.length + c.1.stepsLeft ≤ start.1.stepsLeft := by
  induction run with
  | start => simp
  | act prior action m answers taken ih =>
      have hLess := (Change.of_act? taken).stepsLeft_lt
      dsimp only at ih
      rw [List.length_append, List.length_singleton]
      omega
  | others prior change ih => exact ih

theorem stepsOf_scheduled (jobs : List Job) (gated : Job → Bool) :
    stepsOf (jobs.map fun job => { job, gated := gated job }) = 10 * jobs.length := by
  induction jobs with
  | nil => rfl
  | cons job rest ih =>
      rw [List.map_cons, stepsOf, ih, List.length_cons, Stage.stepsLeft]
      omega

/-- A run of a plan has at most ten steps for each job, and eleven more. -/
theorem stepsLeft_start (plan : Plan) :
    (Progress.start plan).stepsLeft = 10 * plan.graph.jobs.length + 11 := by
  simp only [Progress.stepsLeft, Progress.start, stepsOf_scheduled]
  simp only [Phase.stepsLeft, Detection.stepsLeft, Bool.not_false, Bool.toNat_true]
  omega

end ChangeGate.Run
