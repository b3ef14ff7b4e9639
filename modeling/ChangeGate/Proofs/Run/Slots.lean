import ChangeGate.Proofs.Plan
import ChangeGate.Proofs.Run.Completion
import ChangeGate.Proofs.Run.Ending
import ChangeGate.Proofs.Run.Replay

/-! The slots of a run. A slot is either free or some worker has it, so no more bodies run together
than there are slots. Only workers past the gate have one, and each gives its slot back when its job
has ended, whatever the ending. -/

namespace ChangeGate.Run

open Progress

variable {σ : Type} {plan : Plan} {store : Store σ} {world : World σ} {s₀ : σ}
  {start b c c' : Progress × σ} {actions : List Action} {m : Moment} {p : Progress} {s : σ}

/-- A step of a worker takes from the free slots what the worker gains, and gives back what it
loses. -/
theorem WorkerMove.slots {i : Nat} {w : Worker} {action : Action} {t : Turn}
    (move : WorkerMove plan store m p s i w action t) :
    t.free.map (· + t.stage.holdsSlot.toNat) = p.free.map (· + w.stage.holdsSlot.toNat) := by
  cases move with
  | cancel hAt hCancelled =>
      generalize w.stage = stage at hAt
      cases hAt <;> rfl
  | unlimited hAt hFree => rw [hAt, goTo, hFree]; rfl
  | secure hAt hFree => rw [hAt, hFree]; rfl
  | @finish ending holdsSlot hAt =>
      rw [hAt]
      cases holdsSlot with
      | false => rfl
      | true => simp [Stage.holdsSlot, Function.comp_def]
  | wait hAt hGated hCancelled => rw [hAt]; rfl
  | bypass hAt hGated hCancelled => rw [hAt]; rfl
  | listen hAt hCancelled => rw [hAt]; rfl
  | reach hAt hReady => rw [hAt]; rfl
  | lose hAt hFailed => rw [hAt]; rfl
  | heed hAt hGivenUp => rw [hAt]; rfl
  | proceed hAt hAnswer => rw [hAt]; rfl
  | skip hAt hAnswer => rw [hAt]; rfl
  | miss hAt hAnswer => rw [hAt]; rfl
  | claim hAt hCancelled => rw [hAt]; rfl
  | withdraw hAt hCancelled => rw [hAt]; rfl
  | start hAt hCancelled => rw [hAt]; rfl
  | enter hAt => rw [hAt]; rfl
  | leave hAt => rw [hAt]; rfl

theorem slotsHeld_take (plan : Plan) (m : Moment) (t : Turn) {i : Nat} {w : Worker}
    (hWorker : p.workers[i]? = some w) :
    (take plan m i t p).slotsHeld + w.stage.holdsSlot.toNat =
      p.slotsHeld + t.stage.holdsSlot.toNat := by
  obtain ⟨before, after, hBefore, hAfter⟩ := workers_of_take plan m t hWorker
  simp only [slotsHeld, hBefore, hAfter, List.countP_append, List.countP_cons]
  cases w.stage.holdsSlot <;> cases t.stage.holdsSlot <;> simp <;> omega

/-- Slots are neither made nor lost. -/
theorem Change.slots_conserved {action : Action} (change : Change plan store m p s action c) :
    c.1.free.map (· + c.1.slotsHeld) = p.free.map (· + p.slotsHeld) := by
  cases change with
  | advanced move => cases move <;> rfl
  | cancelled hCancelled => rfl
  | found hActive move => rfl
  | @turned _ i w t hActive hWorker move =>
      have hHeld := slotsHeld_take plan m t hWorker
      have hSlots := move.slots
      rw [free_take]
      cases hFree : p.free with
      | none =>
          rw [hFree] at hSlots
          rw [Option.map_eq_none_iff.mp hSlots]
          rfl
      | some free =>
          rw [hFree] at hSlots
          obtain ⟨free', hFree', hSum⟩ := Option.map_eq_some_iff.mp hSlots
          rw [hFree', Option.map_some, Option.map_some]
          dsimp only at hSum ⊢
          congr 1
          omega

theorem Runs.slots_conserved (run : Runs plan store world start actions c) :
    c.1.free.map (· + c.1.slotsHeld) = start.1.free.map (· + start.1.slotsHeld) :=
  run.of_steps
    (R := fun b c => c.1.free.map (· + c.1.slotsHeld) = b.1.free.map (· + b.1.slotsHeld))
    (fun _ => rfl) (fun hl hr => hr.trans hl) (fun change => change.slots_conserved)
    (fun _ _ _ => rfl)

/-- In the beginning all slots are free. -/
theorem slots_start (plan : Plan) :
    (Progress.start plan).free.map (· + (Progress.start plan).slotsHeld) = plan.limit := by
  have hNone : (Progress.start plan).slotsHeld = 0 := by
    simp [slotsHeld, Progress.start, List.countP_map, Function.comp_def, Stage.holdsSlot]
  rw [hNone]
  simp [Progress.start]

/-- At any moment of a run, the slots that are free and those that workers have are those of the
plan. -/
theorem Runs.slots_eq_limit (run : Runs plan store world (Progress.start plan, s₀) actions c) :
    c.1.free.map (· + c.1.slotsHeld) = plan.limit :=
  run.slots_conserved.trans (slots_start plan)

/-- A body that runs has a slot. -/
theorem bodiesRunning_le_slotsHeld (p : Progress) : p.bodiesRunning ≤ p.slotsHeld := by
  refine List.countP_mono_left fun w _ hRunning => ?_
  split at hRunning
  · next hAt => rw [hAt]; rfl
  · cases hRunning

/-- No more bodies run together than there are slots. -/
theorem Runs.bodiesRunning_le {limit : Nat} (run : Runs plan store world start actions c)
    (hSlots : start.1.free.map (· + start.1.slotsHeld) = some limit) :
    c.1.bodiesRunning ≤ limit := by
  obtain ⟨free, -, hSum⟩ := Option.map_eq_some_iff.mp (run.slots_conserved.trans hSlots)
  have hRunning := bodiesRunning_le_slotsHeld c.1
  omega

/-- Whether a job that ended so had a slot: only jobs that came past the gate did. -/
def hadSlot : Outcome → Bool
  | .skipped => false
  | .upstreamFailure => false
  | _ => true

/-- Whether a worker at a stage has a slot or may have had one. -/
def Stage.hadSlot : Stage → Bool
  | .finishing ending holdsSlot => holdsSlot && Run.hadSlot ending.outcome
  | .done report => Run.hadSlot report.outcome
  | stage => stage.holdsSlot

theorem hadSlot_of_verdict (result : Except Error TaskResult) :
    hadSlot (Ending.verdict result).1 = true := by
  rcases outcome_of_verdict result with h | h <;> rw [h] <;> rfl

/-- A worker that has a slot after a step ends its job in a way that is open to such workers. -/
theorem WorkerMove.hadSlot_of_holdsSlot {i : Nat} {w : Worker} {action : Action} {t : Turn}
    (move : WorkerMove plan store m p s i w action t) (h : t.stage.holdsSlot = true) :
    t.stage.hadSlot = true := by
  cases move with
  | leave hAt => exact hadSlot_of_verdict _
  | unlimited hAt hFree => rfl
  | secure hAt hFree => rfl
  | withdraw hAt hCancelled => rfl
  | start hAt hCancelled => rfl
  | enter hAt => rfl
  | _ => cases h

/-- A worker that has had a slot has it still, or its job has ended. -/
theorem WorkerMove.hadSlot {i : Nat} {w : Worker} {action : Action} {t : Turn}
    (move : WorkerMove plan store m p s i w action t) (h : w.stage.hadSlot = true) :
    t.stage.hadSlot = true := by
  cases move with
  | withdraw hAt hCancelled => rfl
  | start hAt hCancelled => rfl
  | enter hAt => rfl
  | leave hAt => exact hadSlot_of_verdict _
  | finish hAt =>
      rw [hAt] at h
      exact (Bool.and_eq_true_iff.mp h).2
  | cancel hAt hCancelled =>
      generalize w.stage = stage at hAt h
      cases hAt <;> cases h
  | wait hAt hGated hCancelled => rw [hAt] at h; cases h
  | bypass hAt hGated hCancelled => rw [hAt] at h; cases h
  | listen hAt hCancelled => rw [hAt] at h; cases h
  | reach hAt hReady => rw [hAt] at h; cases h
  | lose hAt hFailed => rw [hAt] at h; cases h
  | heed hAt hGivenUp => rw [hAt] at h; cases h
  | proceed hAt hAnswer => rw [hAt] at h; cases h
  | skip hAt hAnswer => rw [hAt] at h; cases h
  | miss hAt hAnswer => rw [hAt] at h; cases h
  | unlimited hAt hFree => rw [hAt] at h; cases h
  | claim hAt hCancelled => rw [hAt] at h; cases h
  | secure hAt hFree => rw [hAt] at h; cases h

theorem Runs.hadSlot_of_holdsSlot
    (run : Runs plan store world (Progress.start plan, s₀) actions c) :
    ∀ w ∈ c.1.workers, w.stage.holdsSlot = true → w.stage.hadSlot = true := by
  induction run with
  | start =>
      intro w hMem h
      obtain ⟨job, -, rfl⟩ := List.mem_map.mp hMem
      cases h
  | others prior change ih => exact ih
  | act prior action m answers taken ih =>
      intro w' hMem
      cases Change.of_act? taken with
      | advanced move => cases move <;> exact ih w' hMem
      | cancelled hCancelled => exact ih w' hMem
      | found hActive move => exact ih w' hMem
      | turned hActive hWorker move =>
          rcases mem_of_take hWorker hMem with rfl | hOld
          · exact move.hadSlot_of_holdsSlot
          · exact ih w' hOld

/-- A worker that has a slot after a step was let pass by the gate before, if it had to ask. -/
theorem WorkerMove.cleared_of_holdsSlot {i : Nat} {w : Worker} {action : Action} {t : Turn}
    (move : WorkerMove plan store m p s i w action t)
    (sound : Sound plan store world start actions (p, s) w w.stage)
    (h : t.stage.holdsSlot = true) :
    Cleared plan store world start actions (p, s) w := by
  cases move with
  | unlimited hAt hFree => rw [hAt] at sound; exact sound
  | secure hAt hFree => rw [hAt] at sound; exact sound
  | withdraw hAt hCancelled => rw [hAt] at sound; exact sound
  | start hAt hCancelled => rw [hAt] at sound; exact sound
  | enter hAt => rw [hAt] at sound; exact sound
  | leave hAt => rw [hAt] at sound; exact sound
  | _ => cases h

/-- Slots are had only past the gate. -/
theorem Runs.cleared_of_holdsSlot
    (run : Runs plan store world (Progress.start plan, s₀) actions c) :
    ∀ w ∈ c.1.workers, w.stage.holdsSlot = true →
      Cleared plan store world (Progress.start plan, s₀) actions c w := by
  induction run with
  | start =>
      intro w hMem h
      obtain ⟨job, -, rfl⟩ := List.mem_map.mp hMem
      cases h
  | others prior change ih => exact fun w hMem h => (ih w hMem h).mono (.others change)
  | @act actions p s c prior action m answers taken ih =>
      have ext : Extends plan store world (Progress.start plan, s₀) actions (p, s)
          (actions ++ [action]) c := .act answers taken
      intro w' hMem h
      cases Change.of_act? taken with
      | advanced move => cases move <;> exact (ih w' hMem h).mono ext
      | cancelled hCancelled => exact (ih w' hMem h).mono ext
      | found hActive move => exact (ih w' hMem h).mono ext
      | @turned _ i w t hActive hWorker move =>
          rcases mem_of_take hWorker hMem with rfl | hOld
          · have sound := prior.sound w (List.mem_of_getElem? hWorker)
            have cleared := move.cleared_of_holdsSlot sound h
            exact Cleared.mono ext cleared
          · exact (ih w' hOld h).mono ext

/-- What a run keeps of the slots of its plan. -/
structure SlotsKept (plan : Plan) (store : Store σ) (world : World σ) (s₀ : σ)
    (actions : List Action) (c : Progress × σ) : Prop where
  /-- Without a limit nobody counts. -/
  unlimited : plan.limit = none → c.1.free = none
  /-- The free slots and those that workers have are as many as the limit says, so at most as many
  bodies run. -/
  conserved : ∀ limit, plan.limit = some limit → ∃ free, c.1.free = some free ∧
    free + c.1.slotsHeld = limit ∧ c.1.slotsHeld ≤ limit ∧ c.1.bodiesRunning ≤ limit
  /-- Who has a slot was let pass by the gate, if he had to ask. -/
  past_gate : ∀ w ∈ c.1.workers, w.stage.holdsSlot = true →
    Cleared plan store world (Progress.start plan, s₀) actions c w
  /-- Who waits for the detector or for a slot, or is cancelled without one, or is skipped or fails
  with the upstream, has never had one. -/
  never_held : ∀ (b : Progress × σ) (i : Nat) (v w : Worker),
    Passes plan store world (Progress.start plan, s₀) actions c b → b.1.workers[i]? = some v →
    c.1.workers[i]? = some w → w.stage.hadSlot = false → v.stage.holdsSlot = false
  /-- A slot is given back in the step that ends the job of its worker. -/
  returned : ∀ (m : Moment) (action : Action) (c' : Progress × σ) (i : Nat) (w w' : Worker),
    c.1.act? plan store m c.2 action = some c' → c.1.workers[i]? = some w →
    c'.1.workers[i]? = some w' → w.stage.holdsSlot = true → w'.stage.holdsSlot = false →
      w'.stage.report?.isSome = true ∧ c'.1.free = c.1.free.map (· + 1)
  /-- When all jobs have ended, all slots are free. -/
  drained : (∀ w ∈ c.1.workers, w.stage.report?.isSome = true) → c.1.free = plan.limit

/-- A worker that loses its slot has ended its job, and the slot is free. -/
theorem WorkerMove.returned_slot {i : Nat} {w : Worker} {action : Action} {t : Turn}
    (move : WorkerMove plan store m p s i w action t) (hHeld : w.stage.holdsSlot = true)
    (hLost : t.stage.holdsSlot = false) :
    t.stage.report?.isSome = true ∧ t.free = p.free.map (· + 1) := by
  cases move with
  | @finish ending holdsSlot hAt =>
      rw [hAt] at hHeld
      obtain rfl : holdsSlot = true := hHeld
      exact ⟨rfl, rfl⟩
  | unlimited hAt hFree => cases hLost
  | secure hAt hFree => cases hLost
  | withdraw hAt hCancelled => cases hLost
  | start hAt hCancelled => cases hLost
  | enter hAt => cases hLost
  | leave hAt => cases hLost
  | cancel hAt hCancelled =>
      generalize w.stage = stage at hAt hHeld
      cases hAt <;> cases hHeld
  | wait hAt hGated hCancelled => rw [hAt] at hHeld; cases hHeld
  | bypass hAt hGated hCancelled => rw [hAt] at hHeld; cases hHeld
  | listen hAt hCancelled => rw [hAt] at hHeld; cases hHeld
  | reach hAt hReady => rw [hAt] at hHeld; cases hHeld
  | lose hAt hFailed => rw [hAt] at hHeld; cases hHeld
  | heed hAt hGivenUp => rw [hAt] at hHeld; cases hHeld
  | proceed hAt hAnswer => rw [hAt] at hHeld; cases hHeld
  | skip hAt hAnswer => rw [hAt] at hHeld; cases hHeld
  | miss hAt hAnswer => rw [hAt] at hHeld; cases hHeld
  | claim hAt hCancelled => rw [hAt] at hHeld; cases hHeld

theorem Change.returned_slot {action : Action} (change : Change plan store m p s action c) {i : Nat}
    {w w' : Worker} (hWorker : p.workers[i]? = some w) (hAfter : c.1.workers[i]? = some w')
    (hHeld : w.stage.holdsSlot = true) (hLost : w'.stage.holdsSlot = false) :
    w'.stage.report?.isSome = true ∧ c.1.free = p.free.map (· + 1) := by
  have hStays : c.1.workers[i]? = p.workers[i]? → w'.stage.holdsSlot = true := by
    intro hSame
    obtain rfl := Option.some.inj (hWorker.symm.trans (hSame.symm.trans hAfter))
    exact hHeld
  cases change with
  | advanced move => cases move <;> cases hLost.symm.trans (hStays rfl)
  | cancelled hCancelled => cases hLost.symm.trans (hStays rfl)
  | found hActive move => cases hLost.symm.trans (hStays rfl)
  | @turned _ j v t hActive hMoved move =>
      rcases worker_of_take hMoved hAfter with ⟨rfl, rfl⟩ | ⟨-, hOld⟩
      · obtain rfl := Option.some.inj (hWorker.symm.trans hMoved)
        exact move.returned_slot hHeld hLost
      · cases hLost.symm.trans (hStays (hAfter.trans hOld.symm))

theorem slotsHeld_eq_zero (hDone : ∀ w ∈ p.workers, w.stage.report?.isSome = true) :
    p.slotsHeld = 0 := by
  refine List.countP_eq_zero.mpr fun w hMem => ?_
  obtain ⟨r, hReport⟩ := Option.isSome_iff_exists.mp (hDone w hMem)
  rw [stage_of_report? hReport]
  nofun

/-- In every state of every run of a plan that was made of a workflow, in whatever order its steps
are taken and whenever it is cancelled, the slots are as many as the settings say, else as the
workflow says, and at least one; each is free or had by one worker, and none is lost. -/
theorem slots_kept {newId : Nat → JobId} {runId : RunId} {workflow : Workflow}
    {revisions : Revisions} {settings : Settings} {detector : Detector}
    (hPlan : Plan.make runId workflow revisions settings newId detector = .ok plan)
    (run : Runs plan store world (Progress.start plan, s₀) actions c) :
    ∃ expansion, workflow.matrix.expand workflow.name newId = .ok expansion ∧
      plan.limit = (settings.maxParallel.or expansion.maxParallel).map (max 1) ∧
      SlotsKept plan store world s₀ actions c := by
  obtain ⟨expansion, -, hExpand, -⟩ := Plan.of_make hPlan
  refine ⟨expansion, hExpand, Plan.limit_of_make hPlan hExpand, ?_⟩
  have hSlots := run.slots_eq_limit
  refine ⟨fun hNone => ?_, fun limit hLimit => ?_, run.cleared_of_holdsSlot, ?_, ?_,
    fun hDone => ?_⟩
  · rw [hNone] at hSlots
    exact Option.map_eq_none_iff.mp hSlots
  · rw [hLimit] at hSlots
    obtain ⟨free, hFree, hSum⟩ := Option.map_eq_some_iff.mp hSlots
    have hRunning := run.bodiesRunning_le ((slots_start plan).trans hLimit)
    exact ⟨free, hFree, hSum, by omega, hRunning⟩
  · rintro b i v w ⟨before, after, -, hBefore, hAfter⟩ hEarlier hWorker hNever
    cases hHeld : v.stage.holdsSlot with
    | false => rfl
    | true =>
        have hHad := hBefore.hadSlot_of_holdsSlot v (List.mem_of_getElem? hEarlier) hHeld
        obtain ⟨w', hWorker', hKept⟩ := hAfter.worker_kept (P := fun v => v.stage.hadSlot = true)
          (fun _ _ _ move h => move.hadSlot h) hEarlier hHad
        obtain rfl := Option.some.inj (hWorker.symm.trans hWorker')
        cases hNever.symm.trans hKept
  · intro m action c' i w w' taken hWorker hAfter hHeld hLost
    exact (Change.of_act? taken).returned_slot hWorker hAfter hHeld hLost
  · rw [← hSlots, slotsHeld_eq_zero hDone]
    simp

/-- The sample plan with its one slot given out: nothing is free, and one body runs. -/
theorem sample_slot_held :
    ∃ c actions, Runs samplePlan Store.memory sampleWorld (Progress.start samplePlan, ∅) actions c ∧
      c.1.free = some 0 ∧ c.1.bodiesRunning = 1 ∧ samplePlan.limit = some 1 ∧
      SlotsKept samplePlan Store.memory sampleWorld ∅ actions c := by
  have hPlan : Plan.make ⟨Uuid.ofNat 7⟩ sampleWorkflow ⟨"main", "topic"⟩ { workspace := "." }
      (fun i => ⟨Uuid.ofNat i⟩) = .ok samplePlan := by rfl
  have hCheck : (replay samplePlan Store.memory (sampleSchedule.take 10)
      (Progress.start samplePlan, ∅)).any
      (fun c => c.1.free == some 0 && c.1.bodiesRunning == 1) = true := by decide
  obtain ⟨c, run, hEnd⟩ := Runs.exists_of_replay
    (fun entry hMem => sampleSchedule_answers entry (List.mem_of_mem_take hMem)) hCheck
  obtain ⟨hFree, hRunning⟩ := Bool.and_eq_true_iff.mp hEnd
  obtain ⟨-, -, -, kept⟩ := slots_kept hPlan run
  exact ⟨c, _, run, by simpa using hFree, by simpa using hRunning, rfl, kept⟩

end ChangeGate.Run
