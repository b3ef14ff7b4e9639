import ChangeGate.Proofs.Plan
import ChangeGate.Proofs.Run.Slots
import ChangeGate.Proofs.Run.Termination

/-! No run gets stuck. As long as there is no report, somebody other than who cancels can go on: the
detector tells the workers something in the end, and a slot that a worker waits for is had by one
that can go on. As runs also end, a run that goes on as far as it can comes to its report. -/

namespace ChangeGate.Run

open Progress

variable {σ : Type} {plan : Plan} {store : Store σ} {world : World σ} {s₀ : σ}
  {start c : Progress × σ} {actions : List Action} {m : Moment} {p : Progress} {s : σ}
  {diff : Except Error (List String)} {body : TaskContext → Except Error TaskResult}

/-- Where a run may begin: before its first step, or where its workers and its detector begin, as if
slots could be made in any number. -/
inductive Begins (plan : Plan) : Progress → Prop where
  | created : Begins plan (Progress.start plan)
  | active : Begins plan { Progress.start plan with phase := .active }

/-- Whether the workers have not begun yet, or never will. -/
def Phase.isBefore : Phase → Bool
  | .created => true
  | .begun => true
  | .aborted => true
  | _ => false

/-- What keeps a run from getting stuck. -/
structure Viable (plan : Plan) (p : Progress) : Prop where
  /-- A detector that has ended has told the workers something. -/
  told : ∀ decision error, p.detection ≠ .ended .pending decision error
  /-- Workers wait for slots only where there is a limit. -/
  limited : ∀ w ∈ p.workers, w.stage = .claiming → plan.limit ≠ none
  conserved : p.free.map (· + p.slotsHeld) = plan.limit
  before : p.phase.isBefore = true → ∀ w ∈ p.workers, w.stage = .scheduled
  /-- A run is given up only if more slots are wanted than can be made. -/
  aborted : p.phase = .aborted → ∃ n, plan.limit = some n ∧ Plan.maxSlots < n

theorem slotsHeld_eq_zero_of_scheduled (h : ∀ w ∈ p.workers, w.stage = .scheduled) :
    p.slotsHeld = 0 := by
  refine List.countP_eq_zero.mpr fun w hMem => ?_
  rw [h w hMem]
  nofun

theorem Begins.viable (begins : Begins plan p) : Viable plan p := by
  have hScheduled : ∀ w ∈ (Progress.start plan).workers, w.stage = .scheduled := by
    intro w hMem
    obtain ⟨job, -, rfl⟩ := List.mem_map.mp hMem
    rfl
  have hLimited : ∀ w ∈ (Progress.start plan).workers, w.stage = .claiming → plan.limit ≠ none := by
    intro w hMem hAt
    rw [hScheduled w hMem] at hAt
    cases hAt
  cases begins with
  | created => exact ⟨nofun, hLimited, slots_start plan, fun _ => hScheduled, nofun⟩
  | active => exact ⟨nofun, hLimited, slots_start plan, nofun, nofun⟩

theorem WorkerMove.free_of_claiming {i : Nat} {w : Worker} {action : Action} {t : Turn}
    (move : WorkerMove plan store m p s i w action t) (h : t.stage = .claiming) :
    p.free ≠ none := by
  cases move with
  | claim hAt hCancelled hFree => exact hFree
  | _ => cases h

theorem DetectorMove.told {action : Action} {f : Finding σ}
    (move : DetectorMove plan store m p s action f) (decision : Option Decision)
    (error : Option String) : f.detection ≠ .ended .pending decision error := by
  cases move <;> nofun

/-- A step keeps what keeps a run from getting stuck. -/
theorem Change.viable {action : Action} (change : Change plan store m p s action c)
    (viable : Viable plan p) : Viable plan c.1 := by
  have hConserved := change.slots_conserved.trans viable.conserved
  cases change with
  | advanced move =>
      cases move with
      | begin hPhase => exact { viable with before := fun _ => viable.before (by rw [hPhase]; rfl)
                                            aborted := nofun }
      | expand hPhase hNext hSlots =>
          have hScheduled := viable.before (by rw [hPhase]; rfl)
          refine { viable with before := fun _ => hScheduled, aborted := fun hAborted => ?_ }
          obtain ⟨n, hFree, hBeyond⟩ := hSlots.mp hAborted
          refine ⟨n, ?_, hBeyond⟩
          rw [← viable.conserved, slotsHeld_eq_zero_of_scheduled hScheduled, hFree]
          rfl
      | join hPhase hEnded hDone => exact { viable with before := nofun, aborted := nofun }
      | close hPhase => exact { viable with before := nofun, aborted := nofun }
      | complete hPhase => exact { viable with before := nofun, aborted := nofun }
  | cancelled hCancelled => exact { viable with }
  | found hActive move => exact { viable with told := move.told }
  | turned hActive hWorker move =>
      refine ⟨viable.told, fun w' hMem hAt => ?_, hConserved, fun hBefore => ?_, viable.aborted⟩
      · rcases mem_of_take hWorker hMem with rfl | hOld
        · rw [← viable.conserved]
          simpa using move.free_of_claiming hAt
        · exact viable.limited w' hOld hAt
      · rw [phase_take, hActive] at hBefore
        cases hBefore

theorem Runs.viable (run : Runs plan store world start actions c) (hStart : Viable plan start.1) :
    Viable plan c.1 := by
  induction run with
  | start => exact hStart
  | act prior action m answers taken ih => exact (Change.of_act? taken).viable ih
  | others prior change ih => exact ih

/-- An action that can be taken and, if it carries an answer, carries the given one. -/
def Enabled (plan : Plan) (store : Store σ) (diff : Except Error (List String))
    (body : TaskContext → Except Error TaskResult) (m : Moment) (c : Progress × σ)
    (action : Action) : Prop :=
  (World.fixed diff body : World σ).Answers plan c.1 action ∧
    ∃ c', c.1.act? plan store m c.2 action = some c'

theorem isActive_of_phase (h : p.phase = .active) : p.isActive = true := by
  rw [isActive, h]

/-- A detector that has not ended can go on. -/
theorem exists_detector_step (store : Store σ) (s : σ) (m : Moment)
    (diff : Except Error (List String)) (body : TaskContext → Except Error TaskResult)
    (hActive : p.phase = .active)
    (hGoing : ∀ signal decision error, p.detection ≠ .ended signal decision error) :
    ∃ action, (action = .detect ∨ action = .listed diff) ∧
      Enabled plan store diff body m (p, s) action := by
  have hIsActive := isActive_of_phase hActive
  cases hAt : p.detection with
  | listing =>
      exact ⟨.listed diff, .inr rfl, rfl, _, by simp only [act?, hIsActive, listed, hAt]; rfl⟩
  | ended signal decision error => exact absurd hAt (hGoing signal decision error)
  | idle =>
      refine ⟨.detect, .inl rfl, trivial, ?_⟩
      simp only [act?, hIsActive, detect, hAt]
      cases p.cancelled <;> exact ⟨_, rfl⟩
  | judged result =>
      refine ⟨.detect, .inl rfl, trivial, ?_⟩
      simp only [act?, hIsActive, detect, hAt]
      cases result <;> exact ⟨_, rfl⟩
  | recorded result =>
      refine ⟨.detect, .inl rfl, trivial, ?_⟩
      simp only [act?, hIsActive, detect, hAt]
      cases result <;> exact ⟨_, rfl⟩
  | announced result =>
      refine ⟨.detect, .inl rfl, trivial, ?_⟩
      simp only [act?, hIsActive, detect, hAt]
      cases result <;> exact ⟨_, rfl⟩

/-- A worker that has not ended can go on, unless it waits for the detector or a slot in vain. -/
theorem exists_worker_step (store : Store σ) (s : σ) (m : Moment)
    (diff : Except Error (List String)) (body : TaskContext → Except Error TaskResult)
    (hActive : p.phase = .active) {i : Nat} {w : Worker} (hWorker : p.workers[i]? = some w)
    (hGoing : w.stage.report? = none)
    (hTold : w.stage = .listening → p.detection.signal ≠ .pending)
    (hSlot : w.stage = .claiming → ∃ free, p.free = some (free + 1)) :
    ∃ action, (action = .work i ∨ action = .returned i (body (plan.context w.job))) ∧
      Enabled plan store diff body m (p, s) action := by
  have hIsActive := isActive_of_phase hActive
  have hWork : ∀ t, turn? m (store.check s plan.detector.key) p w = some t →
      ∃ action, (action = .work i ∨ action = .returned i (body (plan.context w.job))) ∧
        Enabled plan store diff body m (p, s) action := by
    intro t hTurn
    refine ⟨.work i, .inl rfl, trivial, (take plan m i t p, s), ?_⟩
    simp [act?, hIsActive, hWorker, hTurn]
  cases hAt : w.stage with
  | running startedAt since =>
      refine ⟨.returned i (body (plan.context w.job)), .inr rfl, ?_, ?_⟩
      · intro v hMoved
        obtain rfl := Option.some.inj (hWorker.symm.trans hMoved)
        rfl
      · simp only [act?, hIsActive, hWorker, Option.bind_some, returned, hAt]
        exact ⟨_, rfl⟩
  | done report => rw [hAt] at hGoing; cases hGoing
  | listening =>
      cases hSignal : p.detection.signal with
      | pending => exact absurd hSignal (hTold hAt)
      | _ => exact hWork _ (by simp only [turn?, hAt, hSignal, Signal.next]; rfl)
  | claiming =>
      obtain ⟨free, hFree⟩ := hSlot hAt
      exact hWork _ (by simp only [turn?, hAt, hFree]; rfl)
  | _ => exact hWork _ (by simp only [turn?, hAt]; rfl)

theorem notWaiting_of_holdsSlot {stage : Stage} (h : stage.holdsSlot = true) :
    stage.report? = none ∧ stage ≠ .listening ∧ stage ≠ .claiming := by
  cases stage <;> simp_all [Stage.holdsSlot, Stage.report?]

section

variable (viable : Viable plan p) (hLimit : plan.limit ≠ some 0) (hActive : p.phase = .active)
  (store : Store σ) (s : σ) (m : Moment) (diff : Except Error (List String))
  (body : TaskContext → Except Error TaskResult)

include viable hLimit hActive

/-- Where no slot is free, some worker has one, and it can go on whatever the detector does. -/
theorem Viable.exists_holder (hFree : p.free = some 0) :
    ∃ j v, p.workers[j]? = some v ∧ v.stage.holdsSlot = true ∧
      ∃ action, (action = .work j ∨ action = .returned j (body (plan.context v.job))) ∧
        Enabled plan store diff body m (p, s) action := by
  have hConserved := viable.conserved
  rw [hFree, Option.map_some, Nat.zero_add] at hConserved
  have hHeld : 0 < p.slotsHeld := by
    rcases Nat.eq_zero_or_pos p.slotsHeld with hZero | hPos
    · rw [hZero] at hConserved
      exact absurd hConserved.symm hLimit
    · exact hPos
  obtain ⟨v, hMem, hHolds⟩ := List.countP_pos_iff.mp hHeld
  obtain ⟨j, hAt⟩ := List.mem_iff_getElem?.mp hMem
  obtain ⟨hGoing, hTold, hSlot⟩ := notWaiting_of_holdsSlot hHolds
  exact ⟨j, v, hAt, hHolds, exists_worker_step store s m diff body hActive hAt hGoing
    (fun h => absurd h hTold) (fun h => absurd h hSlot)⟩

/-- As long as a worker has not ended, somebody can go on, once the detector has ended. -/
theorem Viable.exists_work {signal : Signal} {decision : Option Decision} {error : Option String}
    (hEnded : p.detection = .ended signal decision error) {i : Nat} {w : Worker}
    (hWorker : p.workers[i]? = some w) (hGoing : w.stage.report? = none) :
    ∃ action, action ≠ .cancel ∧ Enabled plan store diff body m (p, s) action := by
  have hTold : p.detection.signal ≠ .pending := by
    rw [hEnded]
    rintro rfl
    exact viable.told decision error hEnded
  by_cases hFull : w.stage = .claiming ∧ p.free = some 0
  · obtain ⟨j, v, -, -, action, hAction, hEnabled⟩ :=
      viable.exists_holder hLimit hActive store s m diff body hFull.2
    exact ⟨action, by rcases hAction with rfl | rfl <;> simp, hEnabled⟩
  · have hSlot : w.stage = .claiming → ∃ free, p.free = some (free + 1) := by
      intro hAt
      have hLimited := viable.limited w (List.mem_of_getElem? hWorker) hAt
      rw [← viable.conserved] at hLimited
      cases hFree : p.free with
      | none => simp [hFree] at hLimited
      | some free =>
          cases free with
          | zero => exact absurd ⟨hAt, hFree⟩ hFull
          | succ free => exact ⟨free, rfl⟩
    obtain ⟨action, hAction, hEnabled⟩ := exists_worker_step store s m diff body hActive hWorker
      hGoing (fun _ => hTold) hSlot
    exact ⟨action, by rcases hAction with rfl | rfl <;> simp, hEnabled⟩

end

/-- As long as a run that was not given up has no report, somebody other than who cancels can go on,
whatever the time, and whatever the answers. -/
theorem Viable.exists_step (viable : Viable plan p) (hLimit : plan.limit ≠ some 0)
    (hAborted : p.phase ≠ .aborted) (hReport : p.report? = none) (store : Store σ) (s : σ)
    (m : Moment) (diff : Except Error (List String))
    (body : TaskContext → Except Error TaskResult) :
    ∃ action, action ≠ .cancel ∧ Enabled plan store diff body m (p, s) action := by
  have hAdvance : Action.advance ≠ .cancel := by simp
  cases hPhase : p.phase with
  | created => exact ⟨.advance, hAdvance, trivial, _, by simp only [act?, advance, hPhase]; rfl⟩
  | begun => exact ⟨.advance, hAdvance, trivial, _, by simp only [act?, advance, hPhase]; rfl⟩
  | joined report =>
      exact ⟨.advance, hAdvance, trivial, _, by simp only [act?, advance, hPhase]; rfl⟩
  | closing report =>
      exact ⟨.advance, hAdvance, trivial, _, by simp only [act?, advance, hPhase]; rfl⟩
  | completed report => simp [Progress.report?, hPhase] at hReport
  | aborted => exact absurd hPhase hAborted
  | active =>
      by_cases hEnded : ∃ signal decision error, p.detection = .ended signal decision error
      · obtain ⟨signal, decision, error, hEnded⟩ := hEnded
        by_cases hDone : ∀ w ∈ p.workers, w.stage.report?.isSome = true
        · exact ⟨.advance, hAdvance, trivial, _,
            by simp only [act?, advance, hPhase, hEnded, List.all_eq_true.mpr hDone]; rfl⟩
        · push Not at hDone
          obtain ⟨w, hMem, hGoing⟩ := hDone
          obtain ⟨i, hWorker⟩ := List.mem_iff_getElem?.mp hMem
          exact viable.exists_work hLimit hPhase store s m diff body hEnded hWorker
            (by simpa using hGoing)
      · push Not at hEnded
        obtain ⟨action, hAction, hEnabled⟩ :=
          exists_detector_step store s m diff body hPhase hEnded
        exact ⟨action, by rcases hAction with rfl | rfl <;> simp, hEnabled⟩

/-- The report of a run has each job at its place, as its worker reports it. -/
structure Collected (plan : Plan) (p : Progress) (report : RunReport) : Prop where
  length_eq : report.jobs.length = plan.graph.jobs.length
  reports : ∀ (i : Nat) (job : Job), plan.graph.jobs[i]? = some job → ∃ w r,
    p.workers[i]? = some w ∧ w.job = job ∧ w.stage = .done r ∧ report.jobs[i]? = some r

/-- Whether the listing of paths and every body return something. -/
def World.Returns (world : World σ) : Prop :=
  (∃ diff, world.listing diff) ∧ ∀ context, ∃ result, world.body context result

/-- What keeps a run, as far as it has come, from getting stuck or going on for ever. -/
structure NeverStuck (plan : Plan) (store : Store σ) (world : World σ) (actions : List Action)
    (c : Progress × σ) : Prop where
  /-- A run is given up only if more slots are wanted than can be made, before anybody begins. -/
  aborted : c.1.phase = .aborted → (∃ n, plan.limit = some n ∧ Plan.maxSlots < n) ∧
    ∀ w ∈ c.1.workers, w.stage = .scheduled
  /-- As long as there is no report, somebody other than who cancels can go on. -/
  goes_on : c.1.phase ≠ .aborted → c.1.report? = none → ∀ m diff body,
    ∃ action, action ≠ .cancel ∧ Enabled plan store diff body m c action
  /-- Nobody goes on for ever. -/
  bounded : actions.length ≤ 10 * plan.graph.jobs.length + 11
  /-- A worker that waits for a slot can have one, or somebody has one and can go on without the
  detector. -/
  served : ∀ w ∈ c.1.workers, w.stage = .claiming → ∀ m diff body,
    (∃ free, c.1.free = some (free + 1)) ∨ ∃ j v, c.1.workers[j]? = some v ∧
      v.stage.holdsSlot = true ∧ ∃ action,
        (action = .work j ∨ action = .returned j (body (plan.context v.job))) ∧
          Enabled plan store diff body m c action
  /-- A worker that waits for the detector has been told something, or the detector can go on. -/
  told : ∀ w ∈ c.1.workers, w.stage = .waiting ∨ w.stage = .listening → ∀ m diff body,
    c.1.detection.signal ≠ .pending ∨ ∃ action, (action = .detect ∨ action = .listed diff) ∧
      Enabled plan store diff body m c action
  /-- If nobody other than who cancels can go on, all jobs have been reported. -/
  ends : world.Returns → c.1.phase ≠ .aborted →
    (∀ m action c', action ≠ .cancel → world.Answers plan c.1 action →
      c.1.act? plan store m c.2 action ≠ some c') →
    ∃ report, c.1.report? = some report ∧ Collected plan c.1 report
  /-- Without anybody who cancels, the run can be brought to its report. -/
  completes : world.Returns →
    (c.1.phase.isBefore = true → ∀ n, plan.limit = some n → n ≤ Plan.maxSlots) →
    ∃ later c' report, Runs plan store world c later c' ∧ Action.cancel ∉ later ∧
      c'.1.report? = some report ∧ Collected plan c'.1 report

theorem Begins.workers_eq (begins : Begins plan p) :
    p.workers = (Progress.start plan).workers := by
  cases begins <;> rfl

theorem Begins.unreported (begins : Begins plan p) : p.phase.report? = none := by
  cases begins <;> rfl

theorem Begins.stepsLeft_le (begins : Begins plan p) :
    p.stepsLeft ≤ 10 * plan.graph.jobs.length + 11 := by
  have hStart := stepsLeft_start plan
  cases begins with
  | created => omega
  | active =>
      simp only [Progress.stepsLeft, Progress.start, Phase.stepsLeft] at hStart ⊢
      omega

theorem Runs.collected (run : Runs plan store world start actions c)
    (begins : Begins plan start.1) {report : RunReport} (hReport : c.1.report? = some report) :
    Collected plan c.1 report := by
  have agrees := run.agrees_of_unreported begins.unreported report
    (by rw [phase_of_report? hReport]; rfl)
  refine ⟨?_, fun i job hJob => ?_⟩
  · rw [← run.length_workers_of_workers begins.workers_eq, agrees.jobs_eq]
    exact List.filterMap_length_eq_length.mpr agrees.done
  · obtain ⟨w, hWorker, hEq, -⟩ := run.worker_at_of_workers begins.workers_eq hJob
    obtain ⟨r, hDone, hPlace⟩ := agrees.report_of_worker hWorker
    exact ⟨w, r, hWorker, hEq, hDone, hPlace⟩

/-- Workers that have begun and not ended are found only while the run is active. -/
theorem Runs.active_of_stage (run : Runs plan store world start actions c)
    (begins : Begins plan start.1) {w : Worker} (hMem : w ∈ c.1.workers)
    (hBegun : w.stage ≠ .scheduled) (hGoing : w.stage.report? = none) : c.1.phase = .active := by
  have viable := run.viable begins.viable
  have hBefore : c.1.phase.isBefore ≠ true := fun h => hBegun (viable.before h w hMem)
  have hAfter : c.1.phase.report? = none := by
    cases hReport : c.1.phase.report? with
    | none => rfl
    | some report =>
        have agrees := run.agrees_of_unreported begins.unreported report hReport
        have hDone := agrees.done w hMem
        rw [hGoing] at hDone
        cases hDone
  cases hPhase : c.1.phase <;> simp_all [Phase.isBefore, Phase.report?]

/-- An answer that is given in one world is given in another that may give it. -/
theorem Enabled.answers {action : Action} (enabled : Enabled plan store diff body m c action)
    (hDiff : world.listing diff) (hBody : ∀ context, world.body context (body context)) :
    world.Answers plan c.1 action := by
  have answers := enabled.1
  cases action with
  | listed paths =>
      obtain rfl : paths = diff := answers
      exact hDiff
  | returned i result =>
      intro w hWorker
      rw [show result = body (plan.context w.job) from answers w hWorker]
      exact hBody _
  | _ => trivial

theorem Change.isBefore_mono {action : Action} (change : Change plan store m p s action c)
    (h : c.1.phase.isBefore = true) : p.phase.isBefore = true := by
  cases change with
  | advanced move =>
      cases move with
      | begin hPhase => rw [hPhase]; rfl
      | expand hPhase hNext => rw [hPhase]; rfl
      | join hPhase hEnded hDone => cases h
      | close hPhase => cases h
      | complete hPhase => cases h
  | cancelled hCancelled => exact h
  | found hActive move => exact h
  | turned hActive hWorker move => exact h

/-- A run that is not given up can be brought to its report. -/
theorem Runs.exists_completion (run : Runs plan store world start actions c)
    (begins : Begins plan start.1) (hLimit : plan.limit ≠ some 0) (hReturns : world.Returns)
    (hMade : c.1.phase.isBefore = true → ∀ n, plan.limit = some n → n ≤ Plan.maxSlots) :
    ∃ later c' report, Runs plan store world c later c' ∧ Action.cancel ∉ later ∧
      c'.1.report? = some report ∧ Collected plan c'.1 report := by
  obtain ⟨⟨diff, hDiff⟩, hBodies⟩ := hReturns
  choose body hBody using hBodies
  -- Induction on the steps left: each step that can be taken leaves fewer.
  generalize hLeft : c.1.stepsLeft = left
  induction left using Nat.strongRecOn generalizing actions c with
  | ind left ih =>
      cases hReport : c.1.report? with
      | some report => exact ⟨[], c, report, .start, nofun, hReport, run.collected begins hReport⟩
      | none =>
          have viable := run.viable begins.viable
          have hAborted : c.1.phase ≠ .aborted := by
            intro hAborted
            obtain ⟨n, hSome, hBeyond⟩ := viable.aborted hAborted
            have hWithin := hMade (by rw [hAborted]; rfl) n hSome
            omega
          obtain ⟨action, hAction, enabled⟩ :=
            viable.exists_step hLimit hAborted hReport store c.2 sampleMoment diff body
          obtain ⟨next, taken⟩ := enabled.2
          have answers := enabled.answers hDiff hBody
          have change := Change.of_act? taken
          obtain ⟨later, c', report, hLater, hNone, hEnd⟩ :=
            ih next.1.stepsLeft (hLeft ▸ change.stepsLeft_lt)
              (run.act action sampleMoment answers taken)
              (fun h => hMade (change.isBefore_mono h)) rfl
          have first : Runs plan store world c [action] next :=
            Runs.start.act action sampleMoment answers taken
          exact ⟨[action] ++ later, c', report, first.trans hLater, by simp [hAction.symm, hNone],
            hEnd⟩

/-- No run gets stuck, and none goes on for ever. This holds of every plan that was made of a
workflow, whatever the policy and the number of slots, in whatever order its steps are taken, and
whether or not and whenever it is cancelled. -/
theorem never_stuck {newId : Nat → JobId} {runId : RunId} {workflow : Workflow}
    {revisions : Revisions} {settings : Settings} {detector : Detector}
    (hPlan : Plan.make runId workflow revisions settings newId detector = .ok plan)
    (begins : Begins plan start.1) (run : Runs plan store world start actions c) :
    NeverStuck plan store world actions c := by
  obtain ⟨expansion, -, hExpand, -⟩ := Plan.of_make hPlan
  have hLimit : plan.limit ≠ some 0 := by
    intro hZero
    have hOne := Plan.one_le_of_limit ((Plan.limit_of_make hPlan hExpand).symm.trans hZero)
    omega
  have viable := run.viable begins.viable
  refine ⟨fun hAborted => ⟨viable.aborted hAborted, viable.before (by rw [hAborted]; rfl)⟩,
    fun hAborted hReport m diff body =>
      viable.exists_step hLimit hAborted hReport store c.2 m diff body,
    ?_, ?_, ?_, ?_, run.exists_completion begins hLimit⟩
  · have hLength := run.length_add_stepsLeft_le
    have hStart := begins.stepsLeft_le
    omega
  · intro w hMem hAt m diff body
    have hActive := run.active_of_stage begins hMem (by rw [hAt]; nofun) (by rw [hAt]; rfl)
    cases hFree : c.1.free with
    | none =>
        have hLimited := viable.limited w hMem hAt
        rw [← viable.conserved, hFree] at hLimited
        exact absurd rfl hLimited
    | some free =>
        cases free with
        | zero => exact .inr (viable.exists_holder hLimit hActive store c.2 m diff body hFree)
        | succ free => exact .inl ⟨free, rfl⟩
  · intro w hMem hAt m diff body
    have hActive : c.1.phase = .active := by
      rcases hAt with hAt | hAt <;>
        exact run.active_of_stage begins hMem (by rw [hAt]; nofun) (by rw [hAt]; rfl)
    cases hDetection : c.1.detection with
    | ended signal decision error =>
        refine .inl ?_
        rintro rfl
        exact viable.told decision error hDetection
    | _ =>
        exact .inr (exists_detector_step store c.2 m diff body hActive (by rw [hDetection]; nofun))
  · rintro ⟨⟨diff, hDiff⟩, hBodies⟩ hAborted hStuck
    choose body hBody using hBodies
    cases hReport : c.1.report? with
    | some report => exact ⟨report, rfl, run.collected begins hReport⟩
    | none =>
        obtain ⟨action, hAction, enabled⟩ :=
          viable.exists_step hLimit hAborted hReport store c.2 sampleMoment diff body
        obtain ⟨c', taken⟩ := enabled.2
        exact absurd taken (hStuck _ _ _ hAction (enabled.answers hDiff hBody))

/-- The sample plan, left while one job waits for the detector and the other one runs: the run can
be brought to its report, whether it then is cancelled or not. -/
theorem sample_run_completes :
    ∃ c actions, Runs samplePlan Store.memory sampleWorld (Progress.start samplePlan, ∅) actions c ∧
      (∃ w ∈ c.1.workers, w.stage = .listening) ∧ c.1.bodiesRunning = 1 ∧
      NeverStuck samplePlan Store.memory sampleWorld actions c ∧
      ∃ later c' report, Runs samplePlan Store.memory sampleWorld c later c' ∧
        Action.cancel ∉ later ∧ c'.1.report? = some report ∧ report.jobs.length = 2 := by
  have hPlan : Plan.make ⟨Uuid.ofNat 7⟩ sampleWorkflow ⟨"main", "topic"⟩ { workspace := "." }
      (fun i => ⟨Uuid.ofNat i⟩) = .ok samplePlan := by rfl
  have hCheck : (replay samplePlan Store.memory (sampleSchedule.take 10)
      (Progress.start samplePlan, ∅)).any
      (fun c => c.1.workers.any (·.stage matches .listening) && c.1.bodiesRunning == 1) = true := by
    decide
  obtain ⟨c, run, hEnd⟩ := Runs.exists_of_replay
    (fun entry hMem => sampleSchedule_answers entry (List.mem_of_mem_take hMem)) hCheck
  obtain ⟨hAny, hRunning⟩ := Bool.and_eq_true_iff.mp hEnd
  obtain ⟨w, hMem, hAt⟩ := List.any_eq_true.mp hAny
  have hWaiting : w.stage = .listening := by
    cases hStage : w.stage <;> simp_all
  have stuck := never_stuck hPlan .created run
  have hReturns : (sampleWorld : World (Table Json)).Returns := ⟨⟨_, rfl⟩, fun _ => ⟨_, rfl⟩⟩
  obtain ⟨later, c', report, hLater, hNone, hReport, collected⟩ :=
    stuck.completes hReturns (fun _ n hSome => by obtain rfl := Option.some.inj hSome; decide)
  exact ⟨c, _, run, ⟨w, hMem, hWaiting⟩, by simpa using hRunning, stuck, later, c', report,
    hLater, hNone, hReport, collected.length_eq⟩

end ChangeGate.Run
