import ChangeGate.Proofs.Expansion.Basic
import ChangeGate.Proofs.JobGraph
import ChangeGate.Run.Plan

/-! What it takes for a plan to exist, and where its jobs come from. -/

namespace ChangeGate

/-- A plan that was made is that of a workflow in order whose matrix expands, and has its jobs. -/
theorem Plan.of_make {run : RunId} {workflow : Workflow} {revisions : Revisions}
    {settings : Settings} {newId : Nat → JobId} {detector : Detector} {plan : Plan}
    (h : Plan.make run workflow revisions settings newId detector = .ok plan) :
    ∃ expansion, workflow.check = .ok () ∧
      workflow.matrix.expand workflow.name newId = .ok expansion ∧
      plan.graph.jobs = expansion.jobs ∧ plan.graph.policy = settings.policy ∧
      plan.run = run ∧ plan.workflow = workflow ∧ plan.revisions = revisions := by
  obtain ⟨_, hCheck, h⟩ := ok_of_bind h
  obtain ⟨expansion, hExpand, h⟩ := ok_of_bind h
  obtain ⟨graph, hBuild, h⟩ := ok_of_bind h
  cases h
  obtain ⟨hJobs, hPolicy⟩ := JobGraph.jobs_of_build (ok_of_mapError hBuild)
  exact ⟨expansion, ok_of_mapError hCheck, ok_of_mapError hExpand, hJobs, hPolicy, rfl, rfl, rfl⟩

/-- What a workflow is refused for: the fault that its check finds, else the one for which its
matrix does not expand. -/
inductive Workflow.Refused (w : Workflow) (newId : Nat → JobId) : Error → Prop where
  | check {fault : Workflow.Fault} (hCheck : w.check = .error fault) :
      Refused w newId fault.toError
  | expand {fault : Matrix.Fault} (hCheck : w.check = .ok ())
      (hExpand : w.matrix.expand w.name newId = .error fault) : Refused w newId fault.toError

/-- A workflow in order whose matrix expands has a plan, if the identifiers of its
jobs differ. -/
theorem Plan.exists_make (run : RunId) {workflow : Workflow} (revisions : Revisions)
    (settings : Settings) {newId : Nat → JobId} (detector : Detector)
    (hCheck : workflow.check = .ok ()) {expansion : Expansion}
    (hExpand : workflow.matrix.expand workflow.name newId = .ok expansion)
    (hIds : (expansion.jobs.map (·.id)).Nodup) :
    ∃ plan, Plan.make run workflow revisions settings newId detector = .ok plan ∧
      JobGraph.build expansion settings.policy = .ok plan.graph := by
  obtain ⟨graph, hBuild⟩ :=
    JobGraph.exists_build Digraph.sorts_order? settings.policy (Matrix.of_expand hExpand).1 hIds
  let limit := Plan.slots settings.maxParallel expansion.maxParallel
  refine ⟨{ run, workflow, revisions, settings, detector, graph, limit }, ?_, hBuild⟩
  rw [Plan.make, hCheck, hExpand]
  change ((JobGraph.build expansion settings.policy).mapError _).bind _ = _
  rw [hBuild]
  rfl

/-- Wiring adds no fault to those of a workflow, if the identifiers of its jobs differ. -/
theorem Plan.make_eq_error_iff {run : RunId} {workflow : Workflow} {revisions : Revisions}
    {settings : Settings} {newId : Nat → JobId} {detector : Detector}
    (hIds : ∀ expansion, workflow.matrix.expand workflow.name newId = .ok expansion →
      (expansion.jobs.map (·.id)).Nodup) (e : Error) :
    Plan.make run workflow revisions settings newId detector = .error e ↔
      workflow.Refused newId e := by
  constructor
  · intro h
    cases hCheck : workflow.check with
    | error fault =>
        rw [Plan.make, hCheck] at h
        cases h
        exact .check hCheck
    | ok =>
        cases hExpand : workflow.matrix.expand workflow.name newId with
        | error fault =>
            rw [Plan.make, hCheck, hExpand] at h
            cases h
            exact .expand hCheck hExpand
        | ok expansion =>
            obtain ⟨plan, hPlan, -⟩ :=
              Plan.exists_make run revisions settings detector hCheck hExpand (hIds _ hExpand)
            rw [hPlan] at h
            cases h
  · rintro (hCheck | ⟨hCheck, hExpand⟩)
    · rw [Plan.make, hCheck]
      rfl
    · rw [Plan.make, hCheck, hExpand]
      rfl

/-- The slots of a plan: as many as the settings say, else as the workflow says, at least one. -/
theorem Plan.limit_of_make {run : RunId} {workflow : Workflow} {revisions : Revisions}
    {settings : Settings} {newId : Nat → JobId} {detector : Detector} {plan : Plan}
    (h : Plan.make run workflow revisions settings newId detector = .ok plan)
    {expansion : Expansion}
    (hExpand : workflow.matrix.expand workflow.name newId = .ok expansion) :
    plan.limit = (settings.maxParallel.or expansion.maxParallel).map (max 1) := by
  obtain ⟨_, -, h⟩ := ok_of_bind h
  obtain ⟨expansion', hExpand', h⟩ := ok_of_bind h
  obtain ⟨graph, -, h⟩ := ok_of_bind h
  obtain rfl := Except.ok.inj ((ok_of_mapError hExpand').symm.trans hExpand)
  cases h
  rfl

theorem Plan.detector_of_make {run : RunId} {workflow : Workflow} {revisions : Revisions}
    {settings : Settings} {newId : Nat → JobId} {detector : Detector} {plan : Plan}
    (h : Plan.make run workflow revisions settings newId detector = .ok plan) :
    plan.detector = detector := by
  obtain ⟨_, -, h⟩ := ok_of_bind h
  obtain ⟨expansion, -, h⟩ := ok_of_bind h
  obtain ⟨graph, -, h⟩ := ok_of_bind h
  cases h
  rfl

theorem Plan.one_le_of_limit {settings workflow : Option Nat} {n : Nat}
    (h : (settings.or workflow).map (max 1) = some n) : 1 ≤ n := by
  obtain ⟨k, -, rfl⟩ := Option.map_eq_some_iff.mp h
  exact Nat.le_max_left 1 k

end ChangeGate
