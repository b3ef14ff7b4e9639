import ChangeGate.CommandLine.Arguments
import ChangeGate.Form.Config
import ChangeGate.Proofs.Form.Workflow
import ChangeGate.Proofs.Run.Call
import ChangeGate.Proofs.Run.Lifecycle

/-! Which limits on the jobs that run at once can be kept. The number of slots is at least one, and
what a workflow asks for is small enough to be made. What is asked for outside the workflow may be
any size, and is raised where it is too small but not lowered where it is too great: then the run is
given up after it has been announced, before any job begins. -/

namespace ChangeGate

/-- The slots that are asked for outside the workflow can be made. -/
def Settings.Usable (settings : Settings) : Prop :=
  ∀ n, settings.maxParallel = some n → n ≤ Plan.maxSlots

/-- The number of slots of a plan, if it has a limit, is one for which slots can be made. -/
def Plan.Makeable (plan : Plan) : Prop := ∀ n, plan.limit = some n → 1 ≤ n ∧ n ≤ Plan.maxSlots

/-- What a workflow asks for can be made, as it is a word. -/
theorem Matrix.Bounded.le_maxSlots {m : Matrix} (bounded : m.Bounded) {n : Nat}
    (h : m.maxParallel = some n) : n ≤ Plan.maxSlots :=
  (bounded n h).trans (by decide)

/-- The slots of a plan can be made exactly if those can that are asked for outside the workflow. -/
theorem Plan.makeable_iff {runId : RunId} {workflow : Workflow} {revisions : Revisions}
    {settings : Settings} {newId : Nat → JobId} {detector : Detector} {plan : Plan}
    (hPlan : Plan.make runId workflow revisions settings newId detector = .ok plan)
    (bounded : workflow.matrix.Bounded) : plan.Makeable ↔ settings.Usable := by
  obtain ⟨expansion, -, hExpand, -⟩ := Plan.of_make hPlan
  have hLimit := Plan.limit_of_make hPlan hExpand
  rw [(Matrix.of_expand hExpand).2] at hLimit
  constructor
  · intro makeable n hSome
    have hAt : plan.limit = some (max 1 n) := by rw [hLimit, hSome]; rfl
    have hWithin := (makeable _ hAt).2
    omega
  · intro usable n hAt
    have hSlots := (Run.Plan.limit_le_of_make hPlan fun k hAsked => ?_).2 n hAt
    · exact ⟨Plan.one_le_of_limit (hLimit.symm.trans hAt), hSlots⟩
    · rcases Option.or_eq_some_iff.mp hAsked with hOutside | ⟨-, hInside⟩
      · exact usable k hOutside
      · exact bounded.le_maxSlots hInside

namespace Run

open Progress

variable {σ : Type} {plan : Plan} {store : Store σ} {world : World σ} {s₀ : σ} {c : Progress × σ}
  {actions : List Action}

/-- A run that wants more slots than can be made never gets to its workers. -/
theorem Runs.isBefore_of_beyond {n : Nat}
    (run : Runs plan store world (Progress.start plan, s₀) actions c)
    (hLimit : plan.limit = some n) (hBeyond : Plan.maxSlots < n) :
    c.1.phase.isBefore = true := by
  induction run with
  | start => rfl
  | others prior change ih => exact ih
  | @act actions p s c prior action m answers taken ih =>
      have viable := prior.viable Begins.created.viable
      cases Change.of_act? taken with
      | cancelled hCancelled => exact ih
      | found hActive move => rw [hActive] at ih; cases ih
      | turned hActive hWorker move => rw [hActive] at ih; cases ih
      | advanced move =>
          cases move with
          | begin hPhase => rfl
          | join hPhase hEnded hDone => rw [hPhase] at ih; cases ih
          | close hPhase => rw [hPhase] at ih; cases ih
          | complete hPhase => rw [hPhase] at ih; cases ih
          | expand hPhase hNext hSlots =>
              have hFree : p.free = some n := by
                have hConserved := viable.conserved
                rw [slotsHeld_eq_zero_of_scheduled (viable.before ih), hLimit] at hConserved
                simpa using hConserved
              obtain rfl := hSlots.mpr ⟨n, hFree, hBeyond⟩
              rfl

/-- A run that cannot be taken on before its workers begin has been given up. -/
theorem aborted_of_advance {p : Progress} (hBefore : p.phase.isBefore = true)
    (hNone : advance plan sampleMoment p = none) : p.phase = .aborted := by
  cases hPhase : p.phase with
  | aborted => rfl
  | created => simp [advance, hPhase] at hNone
  | begun => simp [advance, hPhase] at hNone
  | _ => rw [hPhase] at hBefore; cases hBefore

theorem aborted_of_stuck (hBefore : c.1.phase.isBefore = true)
    (hStuck : ¬ (Call.running plan c).CanGoOn store world) : c.1.phase = .aborted := by
  have hNone : advance plan sampleMoment c.1 = none := by
    refine Option.eq_none_iff_forall_not_mem.mpr fun p hAdvance => hStuck ?_
    exact ⟨sampleMoment, .advance, (p, c.2), nofun, trivial, by rw [act?, hAdvance]; rfl⟩
  exact aborted_of_advance hBefore hNone

/-- A run that is given up has told of its start and its jobs, and of nothing else. -/
theorem Runs.said_of_aborted (run : Runs plan store world (Progress.start plan, s₀) actions c)
    (hAborted : c.1.phase = .aborted) : ∃ at_, c.1.said = opening plan at_ := by
  have logged := run.logged
  rw [hAborted] at logged
  generalize c.1.said = said at logged
  cases logged with
  | aborted at_ => exact ⟨at_, rfl⟩

/-- What comes of a limit that cannot be kept, as far as the run has come: no job begins, there is
no report, and when nobody can go on the run has been given up after its first two events. -/
structure GivenUp (plan : Plan) (store : Store σ) (world : World σ) (c : Progress × σ) : Prop where
  scheduled : ∀ w ∈ c.1.workers, w.stage = .scheduled
  unreported : c.1.report? = none
  ends : ¬ (Call.running plan c).CanGoOn store world →
    c.1.phase = .aborted ∧ ∃ at_, c.1.said = opening plan at_

theorem Runs.givenUp {n : Nat}
    (run : Runs plan store world (Progress.start plan, s₀) actions c)
    (hLimit : plan.limit = some n) (hBeyond : Plan.maxSlots < n) :
    GivenUp plan store world c where
  scheduled := (run.viable Begins.created.viable).before (run.isBefore_of_beyond hLimit hBeyond)
  unreported := by
    have hBefore := run.isBefore_of_beyond hLimit hBeyond
    cases hReport : c.1.report? with
    | none => rfl
    | some report => rw [phase_of_report? hReport] at hBefore; cases hBefore
  ends := by
    intro hStuck
    have hAborted := aborted_of_stuck (run.isBefore_of_beyond hLimit hBeyond) hStuck
    exact ⟨hAborted, run.said_of_aborted hAborted⟩

/-- Whatever a workflow and the settings ask for, the number of slots is at least one, and it is one
for which slots can be made exactly if the settings ask for none or for such a number. With such a
number, no run is given up, and one in which nobody can go on has its report, whoever has cancelled
it. With any greater one, every run is given up after it has been announced. -/
theorem reported_iff_slots_usable {runId : RunId} {workflow : Workflow} {revisions : Revisions}
    {settings : Settings} {newId : Nat → JobId} {detector : Detector}
    (hPlan : Plan.make runId workflow revisions settings newId detector = .ok plan)
    (bounded : workflow.matrix.Bounded)
    (run : Runs plan store world (Progress.start plan, s₀) actions c) :
    (∀ n, plan.limit = some n → 1 ≤ n) ∧ (plan.Makeable ↔ settings.Usable) ∧
    (settings.Usable → c.1.phase ≠ .aborted ∧
      (world.Returns → ¬ (Call.running plan c).CanGoOn store world →
        ∃ report, c.1.report? = some report)) ∧
    (¬ settings.Usable → GivenUp plan store world c) := by
  obtain ⟨expansion, -, hExpand, -⟩ := Plan.of_make hPlan
  have hLimit := Plan.limit_of_make hPlan hExpand
  have hOne : ∀ n, plan.limit = some n → 1 ≤ n := fun n hAt =>
    Plan.one_le_of_limit (hLimit.symm.trans hAt)
  have hMakeable := Plan.makeable_iff hPlan bounded
  refine ⟨hOne, hMakeable, fun usable => ⟨fun hAborted => ?_, fun hReturns hStuck => ?_⟩,
    fun hBeyond => ?_⟩
  · obtain ⟨n, hAt, hBeyond⟩ := (run.viable Begins.created.viable).aborted hAborted
    have hWithin := (hMakeable.mpr usable n hAt).2
    omega
  · refine run.exists_report_of_stuck (fun hZero => ?_) (fun n hAt => ?_) hReturns hStuck
    · exact absurd (hOne 0 hZero) (by decide)
    · exact (hMakeable.mpr usable n hAt).2
  · obtain ⟨n, hAt, hTooMany⟩ : ∃ n, plan.limit = some n ∧ Plan.maxSlots < n := by
      refine Decidable.byContradiction fun hNone => hBeyond (hMakeable.mp fun n hAt => ?_)
      exact ⟨hOne n hAt, Nat.le_of_not_lt fun hLt => hNone ⟨n, hAt, hLt⟩⟩
    exact run.givenUp hAt hTooMany

/-- The plan of the sample workflow for a number of slots that the settings ask for. -/
def samplePlanFor (slots : Nat) : Plan :=
  { samplePlan with
    settings := { workspace := ".", maxParallel := some slots }
    limit := some (max 1 slots) }

theorem make_samplePlanFor (slots : Nat) :
    Plan.make ⟨Uuid.ofNat 7⟩ sampleWorkflow ⟨"main", "topic"⟩
      { workspace := ".", maxParallel := some slots } sampleId = .ok (samplePlanFor slots) := rfl

/-- With as many slots as can be made, the run of the sample workflow has its report. -/
theorem sample_greatest_limit :
    ∃ c actions report,
      Runs (samplePlanFor Plan.maxSlots) Store.memory sampleWorld
        (Progress.start (samplePlanFor Plan.maxSlots), ∅) actions c ∧
      (samplePlanFor Plan.maxSlots).limit = some Plan.maxSlots ∧ c.1.phase ≠ .aborted ∧
      c.1.report? = some report := by
  have bounded : sampleWorkflow.matrix.Bounded := by
    rintro n ⟨⟩
    decide
  have usable : Settings.Usable { workspace := ".", maxParallel := some Plan.maxSlots } := by
    rintro n ⟨⟩
    exact Nat.le_refl _
  have hAnswers : ∀ entry ∈ sampleSchedule, ∀ p, (sampleWorld : World (Table Json)).Answers
      (samplePlanFor Plan.maxSlots) p entry.1 := by
    simp [sampleSchedule, scheduled, World.Answers, sampleWorld, World.fixed]
  have hCheck : (replay (samplePlanFor Plan.maxSlots) Store.memory sampleSchedule
      (Progress.start (samplePlanFor Plan.maxSlots), ∅)).any
      (fun c => c.1.report?.isSome) = true := by decide +kernel
  obtain ⟨c, run, hEnd⟩ := Runs.exists_of_replay hAnswers hCheck
  obtain ⟨report, hReport⟩ := Option.isSome_iff_exists.mp hEnd
  obtain ⟨-, -, hReported, -⟩ :=
    reported_iff_slots_usable (make_samplePlanFor Plan.maxSlots) bounded run
  exact ⟨c, _, report, run, rfl, (hReported usable).1, hReport⟩

/-- One slot more than can be made. -/
def tooMany : String := "2305843009213693952"

/-- That number may be set, may stand in the file of the configuration, and may be given with a
command. The run for which it is given has been announced, and then it is given up without a report:
only a request to cancel can follow. -/
theorem accepted_limit_gives_run_up :
    (({} : Config).set "max_parallel" tooMany).toOption.bind (·.maxParallel) =
      some (Plan.maxSlots + 1) ∧
    (Config.ofText ("max_parallel: " ++ tooMany)).toOption.bind (·.maxParallel) =
      some (Plan.maxSlots + 1) ∧
    (CommandLine.Invocation.ofArguments ["run", "-j", tooMany]).toOption =
      some ⟨.run "tollgate.yaml" { maxParallel := some (Plan.maxSlots + 1) }, false⟩ ∧
    ∃ plan actions c,
      Plan.make ⟨Uuid.ofNat 7⟩ sampleWorkflow ⟨"main", "topic"⟩
        { workspace := ".", maxParallel := some (Plan.maxSlots + 1) } sampleId = .ok plan ∧
      Runs plan Store.memory sampleWorld (Progress.start plan, ∅) actions c ∧
      (∃ at_, .runStarted "build" ⟨"main", "topic"⟩ at_ ∈ c.1.said) ∧ c.1.report? = none ∧
      ∀ m action c', c.1.act? plan Store.memory m c.2 action = some c' → action = .cancel := by
  have hAnswers : ∀ entry ∈ scheduled [.advance, .advance], ∀ p,
      (sampleWorld : World (Table Json)).Answers (samplePlanFor (Plan.maxSlots + 1)) p entry.1 := by
    simp [scheduled, World.Answers]
  have hCheck : (replay (samplePlanFor (Plan.maxSlots + 1)) Store.memory
      (scheduled [.advance, .advance]) (Progress.start (samplePlanFor (Plan.maxSlots + 1)), ∅)).any
      (fun c => (advance (samplePlanFor (Plan.maxSlots + 1)) sampleMoment c.1).isNone) = true := by
    decide +kernel
  obtain ⟨c, run, hEnd⟩ := Runs.exists_of_replay hAnswers hCheck
  have hBefore := run.isBefore_of_beyond rfl (Nat.lt_succ_self _)
  have hAborted : c.1.phase = .aborted :=
    aborted_of_advance hBefore (Option.isNone_iff_eq_none.mp hEnd)
  have givenUp := run.givenUp rfl (Nat.lt_succ_self _)
  refine ⟨by decide +kernel, by decide +kernel, by decide +kernel, _, _, c,
    make_samplePlanFor _, run, ?_, givenUp.unreported, fun m action c' taken => ?_⟩
  · obtain ⟨at_, hSaid⟩ := run.said_of_aborted hAborted
    exact ⟨at_, hSaid ▸ .head _⟩
  · have hInactive : c.1.isActive = false := by rw [isActive, hAborted]
    cases action with
    | cancel => rfl
    | advance => simp [act?, advance, hAborted] at taken
    | _ => simp [act?, hInactive] at taken

end Run

end ChangeGate
