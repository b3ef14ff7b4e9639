import ChangeGate.Proofs.Run.Lifecycle

/-! The gating of a run: what its graph tells of the jobs, and what the run itself tells of the
graph at its start. -/

namespace ChangeGate.Run

open Progress

variable {σ : Type} {plan : Plan} {store : Store σ} {world : World σ} {s₀ : σ}
  {c : Progress × σ} {actions : List Action} {total gated others : Nat}

/-- The numbers of jobs that a run tells are those of its graph. -/
theorem Logged.eq_of_matrixExpanded {cancelled : Bool} {phase : Phase} {said : List Event.Body}
    (logged : Logged plan cancelled phase said)
    (hSaid : Event.Body.matrixExpanded total gated others ∈ said) :
    total = plan.graph.jobs.length ∧ gated = plan.graph.dependents.length ∧
      others = plan.graph.jobs.length - plan.graph.dependents.length := by
  have hInner : ∀ inner : List Event.Body, (∀ e ∈ inner, isFrame e = false) →
      Event.Body.matrixExpanded total gated others ∉ inner := by
    intro inner hNone hMem
    cases hNone _ hMem
  cases logged with
  | created => cases hSaid
  | begun at_ => simp at hSaid
  | aborted at_ => simpa [opening] using hSaid
  | active at_ hNone => simpa [opening, hInner _ hNone] using hSaid
  | joined at_ hNone => simpa [opening, hInner _ hNone] using hSaid
  | closing at_ hNone hLate =>
      rcases hLate with rfl | ⟨rfl, -⟩ <;> simpa [opening, hInner _ hNone] using hSaid
  | completed at_ hNone hLate =>
      rcases hLate with rfl | ⟨rfl, -⟩ <;>
        simpa [opening, lastEvent, hInner _ hNone] using hSaid

/-- Jobs can be wired unless there are none or two of them have one identifier. The views of a graph
that was built agree on the jobs and on which of them the policy gates, whatever sorts graphs
without cycles, and the numbers that a run of the graph tells add up. -/
theorem views_agree_on_gating {sort : Digraph JobGraph.Node → Option (List Nat)}
    (sorts : Digraph.Sorts sort) (expansion : Expansion) (policy : GatePolicy) :
    ((∃ fault, JobGraph.build expansion policy sort = .error fault) ↔
      expansion.jobs = [] ∨ ¬ (expansion.jobs.map (·.id)).Nodup) ∧
    ∀ graph, JobGraph.build expansion policy sort = .ok graph →
      graph.Tells expansion.jobs policy sort ∧
      ∀ (σ : Type) (plan : Plan) (store : Store σ) (world : World σ) (s₀ : σ)
        (actions : List Action) (c : Progress × σ), plan.graph = graph →
        Runs plan store world (Progress.start plan, s₀) actions c →
        ∀ total gated others, Event.Body.matrixExpanded total gated others ∈ c.1.said →
          total = expansion.jobs.length ∧ gated ≤ total ∧ gated + others = total := by
  refine ⟨JobGraph.exists_error_of_build_iff sorts, fun graph hBuild => ?_⟩
  obtain ⟨hJobs, hPolicy⟩ := JobGraph.jobs_of_build hBuild
  refine ⟨hJobs ▸ hPolicy ▸ graph.tells sorts, ?_⟩
  rintro σ plan store world s₀ actions c rfl run total gated others hSaid
  obtain ⟨rfl, rfl, rfl⟩ := run.logged.eq_of_matrixExpanded hSaid
  have hCount := plan.graph.length_dependents_add
  exact ⟨by rw [hJobs], by omega, by omega⟩

/-- The jobs of the sample plan are wired into its graph, and listed twice they are refused. A run
of the plan tells of two jobs, one of them gated. -/
theorem sample_views_agree :
    Digraph.Sorts (Digraph.order? (α := JobGraph.Node)) ∧
    (∃ fault, JobGraph.build ⟨"build", samplePlan.graph.jobs ++ samplePlan.graph.jobs, some 1⟩
      .respectAlwaysRun = .error fault) ∧
    samplePlan.graph.Tells samplePlan.graph.jobs .respectAlwaysRun Digraph.order? ∧
    ∃ actions c, Runs samplePlan Store.memory sampleWorld (Progress.start samplePlan, ∅) actions c ∧
      Event.Body.matrixExpanded 2 1 1 ∈ c.1.said ∧ 1 + 1 = 2 := by
  have hBuild : JobGraph.build ⟨"build", samplePlan.graph.jobs, some 1⟩ .respectAlwaysRun =
      .ok samplePlan.graph := rfl
  have hCheck : (replay samplePlan Store.memory sampleSchedule (Progress.start samplePlan, ∅)).any
      (fun c => decide (Event.Body.matrixExpanded 2 1 1 ∈ c.1.said)) = true := by decide
  obtain ⟨c, run, hEnd⟩ := Runs.exists_of_replay sampleSchedule_answers hCheck
  have hSaid := of_decide_eq_true hEnd
  obtain ⟨hRefused, -⟩ := views_agree_on_gating Digraph.sorts_order?
    ⟨"build", samplePlan.graph.jobs ++ samplePlan.graph.jobs, some 1⟩ .respectAlwaysRun
  obtain ⟨-, hBuilt⟩ := views_agree_on_gating Digraph.sorts_order?
    ⟨"build", samplePlan.graph.jobs, some 1⟩ .respectAlwaysRun
  obtain ⟨tells, hTold⟩ := hBuilt _ hBuild
  obtain ⟨-, -, hSum⟩ := hTold _ _ _ _ _ _ _ rfl run 2 1 1 hSaid
  exact ⟨Digraph.sorts_order?, hRefused.mpr (.inr (by decide)), tells, _, c, run, hSaid, hSum⟩

end ChangeGate.Run
