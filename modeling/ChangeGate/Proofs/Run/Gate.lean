import ChangeGate.Proofs.Decision
import ChangeGate.Proofs.Run.Ending
import ChangeGate.Proofs.Run.Publication
import ChangeGate.Proofs.Run.Replay
import ChangeGate.Proofs.Store.Flag

/-! The gate of a run goes by the decision that the detector of that same run took, recorded and
published: nothing else opens it, and nothing else makes it skip a job. -/

namespace ChangeGate.Run

open Progress

variable {σ : Type} {plan : Plan} {store : Store σ} {world : World σ} {s₀ : σ}
  {c : Progress × σ} {actions : List Action}

/-- Whether the body of a job is about to start or runs. -/
def Stage.inBody : Stage → Bool
  | .starting => true
  | .running .. => true
  | _ => false

/-- The stores that a run is given: the one in memory, to which others may write as well, and a
directory to which nobody else writes. Either may hold anything when the run starts. -/
inductive Provided : {σ : Type} → Store σ → World σ → Prop where
  | memory {world : World (Table Json)}
      (hOthers : ∀ p s t, world.others p s t →
        ∃ key value, t = (Store.memory.put s key value).2) :
      Provided Store.memory world
  | directory {world : World Directory} (hOthers : ∀ p s t, ¬ world.others p s t) :
      Provided Store.directory world

/-- The decision of a run stands: it was taken on paths that this run listed, its key was free when
the run started, the write of this run succeeded, the store holds it, and it has been published. -/
structure Standing (plan : Plan) (store : Store σ) (world : World σ) (s₀ : σ)
    (actions : List Action) (c : Progress × σ) (decision : Decision)
    (diff : Except Error (List String)) : Prop where
  listed : Action.listed diff ∈ actions
  evaluated : plan.detector.evaluate diff = .ok decision
  absent : store.get s₀ plan.detector.key = .error (.decisionNotFound plan.detector.key)
  written : ∃ q t, Passes plan store world (Progress.start plan, s₀) actions c (q, t) ∧
    q.detection = .judged (.ok decision) ∧
    (store.putFlag t plan.detector.key decision.changesDetected).1 = .ok ()
  stored : store.getFlag c.2 plan.detector.key = .ok decision.changesDetected
  published : ∃ at_, .decisionRecorded plan.detector.key decision at_ ∈ c.1.said
  ended : c.1.detection = .ended .ready (some decision) none

theorem Provided.keepsFlag (provided : Provided store world) (key : String) :
    store.KeepsFlag (fun s t => ∃ p, world.others p s t) key := by
  cases provided with
  | memory hOthers => exact Store.memory_keepsFlag key fun s t ⟨p, h⟩ => hOthers p s t h
  | directory hOthers => exact Store.directory_keepsFlag key fun s t ⟨p, h⟩ => hOthers p s t h

section

variable {key : String} {s t : σ}
  (keeps : store.KeepsFlag (fun s t => ∃ p, world.others p s t) key) (hBy : ByOthers world s t)

include keeps hBy

theorem ByOthers.getFlag_eq {b : Bool} (h : store.getFlag s key = .ok b) :
    store.getFlag t key = .ok b := by
  induction hBy with
  | refl => exact h
  | tail _ change ih => exact keeps.kept change ih

theorem ByOthers.absent (h : store.get t key = .error (.decisionNotFound key)) :
    store.get s key = .error (.decisionNotFound key) := by
  induction hBy with
  | refl => exact h
  | tail _ change ih => exact ih (keeps.absent_before change h)

end

/-- A gate that has given a verdict went by a decision that stands. -/
theorem Asked.standing {verdict : Verdict}
    (asked : Asked plan store world (Progress.start plan, s₀) actions c (.ok verdict))
    (keeps : store.KeepsFlag (fun s t => ∃ p, world.others p s t) plan.detector.key)
    (run : Runs plan store world (Progress.start plan, s₀) actions c) :
    ∃ decision diff, Standing plan store world s₀ actions c decision diff ∧
      verdict = Verdict.ofChanges decision.changesDetected := by
  obtain ⟨q, t, passed, hReady, hAnswer⟩ := asked
  obtain ⟨before, hBefore, ext⟩ := passed.extends
  have found := hBefore.found
  cases hAt : q.detection with
  | ended signal d error =>
      rw [hAt] at hReady
      cases hReady
      rw [show (q, t).1.detection = _ from hAt] at found
      obtain ⟨decision, diff, q', t', detected, rfl, rfl⟩ := found
      obtain ⟨hEvaluate, hPut⟩ := written_of_detect_ok detected.result_eq
      have hWritten := keeps.getFlag_put hPut
      have hAfter : (plan.detector.detect store t' diff).2 =
          (store.putFlag t' plan.detector.key decision.changesDetected).2 := by
        rw [detect_of_evaluate_ok store t' hEvaluate]
      have hAsked : store.getFlag t plan.detector.key = .ok decision.changesDetected :=
        (hAfter ▸ detected.byOthers_after).getFlag_eq keeps hWritten
      have hNow := detected.mono ext
      have hEnded : c.1.detection = .ended .ready (some decision) none := ext.ended hAt
      refine ⟨decision, diff, ⟨hNow.listed, hEvaluate, ?_, ⟨q', t', hNow.passed, ?_, hPut⟩, ?_, ?_,
        hEnded⟩, ?_⟩
      · exact detected.byOthers_before.absent keeps (keeps.absent_of_put hPut)
      · rw [detected.judged, hEvaluate]
      · exact (hAfter ▸ hNow.byOthers_after).getFlag_eq keeps hWritten
      · obtain ⟨d, error, at_, hAtNow, hSaid⟩ := run.decision_said (by rw [hEnded]; rfl)
        cases hEnded.symm.trans hAtNow
        exact ⟨at_, hSaid⟩
      · rw [Store.check_of_getFlag hAsked] at hAnswer
        exact (Except.ok.inj hAnswer).symm
  | _ => simp [hAt, Detection.signal] at hReady

/-- A gated job that is in its body has a decision behind it that there are relevant changes. -/
theorem Runs.standing_of_inBody
    (keeps : store.KeepsFlag (fun s t => ∃ p, world.others p s t) plan.detector.key)
    (run : Runs plan store world (Progress.start plan, s₀) actions c) {w : Worker}
    (hMem : w ∈ c.1.workers) (hGated : w.gated = true) (hBody : w.stage.inBody = true) :
    ∃ decision diff, decision.changesDetected = true ∧
      Standing plan store world s₀ actions c decision diff := by
  have cleared : Cleared plan store world (Progress.start plan, s₀) actions c w := by
    have sound := run.sound w hMem
    cases hAt : w.stage with
    | starting => rw [hAt] at sound; exact sound
    | running => rw [hAt] at sound; exact sound
    | _ => rw [hAt] at hBody; cases hBody
  obtain ⟨decision, diff, standing, hVerdict⟩ := (cleared hGated).standing keeps run
  refine ⟨decision, diff, ?_, standing⟩
  cases hChanges : decision.changesDetected with
  | true => rfl
  | false => rw [hChanges] at hVerdict; cases hVerdict

/-- A job that was skipped was gated, and has a decision behind it that there are none. -/
theorem Runs.standing_of_skipped
    (keeps : store.KeepsFlag (fun s t => ∃ p, world.others p s t) plan.detector.key)
    (run : Runs plan store world (Progress.start plan, s₀) actions c) {w : Worker}
    (hMem : w ∈ c.1.workers) {report : JobReport} (hDone : w.stage = .done report)
    (hSkipped : report.outcome = .skipped) :
    w.gated = true ∧ ∃ decision paths, decision.changesDetected = false ∧
      Standing plan store world s₀ actions c decision (.ok paths) := by
  obtain ⟨ending, completedAt, due, rfl⟩ := run.due_of_done hMem hDone
  obtain ⟨hGated, asked⟩ := due.skip hSkipped
  obtain ⟨decision, diff, standing, hVerdict⟩ := asked.standing keeps run
  have hNone : decision.changesDetected = false := by
    cases hChanges : decision.changesDetected with
    | false => rfl
    | true => rw [hChanges] at hVerdict; cases hVerdict
  obtain ⟨paths, rfl, -⟩ := Detector.paths_of_evaluate standing.evaluated hNone
  exact ⟨hGated, decision, paths, hNone, standing⟩

/-- In every state of every run, a gated job is in its body only if the decision of this run stands
and says that there are relevant changes, and a job was skipped only if it is gated and the decision
of this run stands and says that there are none, so that no path matched. Where the key was taken
when the run started, or the detector of the run is not ready, no gated job is in its body and none
was skipped. -/
theorem gate_goes_by_decision_of_run (provided : Provided store world)
    (run : Runs plan store world (Progress.start plan, s₀) actions c) {w : Worker}
    (hMem : w ∈ c.1.workers) :
    (w.gated = true → w.stage.inBody = true → ∃ decision diff, decision.changesDetected = true ∧
      Standing plan store world s₀ actions c decision diff) ∧
    (∀ report, w.stage = .done report → report.outcome = .skipped →
      w.gated = true ∧ ∃ decision paths, decision.changesDetected = false ∧
        Standing plan store world s₀ actions c decision (.ok paths) ∧
        (∀ path ∈ paths, ∀ pattern ∈ plan.detector.patterns, pattern.Matches path = false) ∧
        (plan.detector.patterns = [] → paths = [])) ∧
    (store.get s₀ plan.detector.key ≠ .error (.decisionNotFound plan.detector.key) ∨
        c.1.detection.signal ≠ .ready →
      ¬ (w.gated = true ∧ w.stage.inBody = true) ∧
        ∀ report, w.stage = .done report → report.outcome ≠ .skipped) := by
  have keeps := provided.keepsFlag plan.detector.key
  have hReady : ∀ {decision diff}, Standing plan store world s₀ actions c decision diff →
      ¬ (store.get s₀ plan.detector.key ≠ .error (.decisionNotFound plan.detector.key) ∨
        c.1.detection.signal ≠ .ready) := by
    rintro decision diff standing (hTaken | hSignal)
    · exact hTaken standing.absent
    · exact hSignal (by rw [standing.ended]; rfl)
  refine ⟨fun hGated hBody => run.standing_of_inBody keeps hMem hGated hBody, ?_, ?_⟩
  · intro report hDone hSkipped
    obtain ⟨hGated, decision, paths, hNone, standing⟩ :=
      run.standing_of_skipped keeps hMem hDone hSkipped
    have hPaths : (plan.detector.decide paths).changesDetected = false := by
      rw [Except.ok.inj standing.evaluated, hNone]
    exact ⟨hGated, decision, paths, hNone, standing,
      Decision.changesDetected_ofPaths_eq_false_iff.mp hPaths⟩
  · intro hClosed
    constructor
    · rintro ⟨hGated, hBody⟩
      obtain ⟨decision, diff, -, standing⟩ := run.standing_of_inBody keeps hMem hGated hBody
      exact hReady standing hClosed
    · intro report hDone hSkipped
      obtain ⟨-, decision, paths, -, standing⟩ :=
        run.standing_of_skipped keeps hMem hDone hSkipped
      exact hReady standing hClosed

/-- The gated job of the sample plan in its body, by a run of twenty-two actions. -/
theorem sample_gated_job_in_body :
    ∃ c actions, Runs samplePlan Store.memory sampleWorld (Progress.start samplePlan, ∅) actions c ∧
      ∃ w ∈ c.1.workers, w.gated = true ∧ w.stage.inBody = true ∧
        ∃ decision diff, decision.changesDetected = true ∧
          Standing samplePlan Store.memory sampleWorld ∅ actions c decision diff := by
  have provided : Provided Store.memory sampleWorld := .memory fun _ _ _ h => h.elim
  have hCheck : (replay samplePlan Store.memory (sampleSchedule.take 22)
      (Progress.start samplePlan, ∅)).any
      (fun c => c.1.workers.any fun w => w.gated && w.stage.inBody) = true := by decide
  obtain ⟨c, run, hEnd⟩ := Runs.exists_of_replay
    (fun entry hMem => sampleSchedule_answers entry (List.mem_of_mem_take hMem)) hCheck
  obtain ⟨w, hMem, hStage⟩ := List.any_eq_true.mp hEnd
  obtain ⟨hGated, hBody⟩ := Bool.and_eq_true_iff.mp hStage
  exact ⟨c, _, run, w, hMem, hGated, hBody,
    (gate_goes_by_decision_of_run provided run hMem).1 hGated hBody⟩

end ChangeGate.Run
