import ChangeGate.Proofs.Run.Liveness
import ChangeGate.Proofs.Run.Replay

/-! Calls for runs, as their caller sees them. A call is refused before anything happens, for a
fault of the workflow, or it goes on as the run of its plan and returns the report of that run.
There is no third way for it to end. -/

namespace ChangeGate.Run

open Progress

variable {σ : Type}

/-- How far a call for a run has come. -/
inductive Call (σ : Type) where
  | refused (error : Error) (s : σ)
  | running (plan : Plan) (c : Progress × σ)

namespace Call

def store : Call σ → σ
  | .refused _ s => s
  | .running _ c => c.2

def published : Call σ → List Event
  | .refused .. => []
  | .running _ c => c.1.published

/-- What the call has returned, if it has. -/
def returned? : Call σ → Option (Except Error RunReport)
  | .refused error _ => some (.error error)
  | .running _ c => c.1.report?.map .ok

/-- Somebody other than who cancels can go on. -/
def CanGoOn (store : Store σ) (world : World σ) : Call σ → Prop
  | .refused .. => False
  | .running plan c => ∃ m action c', action ≠ .cancel ∧ world.Answers plan c.1 action ∧
      c.1.act? plan store m c.2 action = some c'

end Call

/-- The courses of a call, given what comes of making its plan: the actions that are taken, and how
far they bring it. -/
inductive Calls (made : Except Error Plan) (store : Store σ) (world : World σ) (s₀ : σ) :
    List Action → Call σ → Prop where
  | refused {e : Error} (hMade : made = .error e) : Calls made store world s₀ [] (.refused e s₀)
  | running {plan : Plan} {actions : List Action} {c : Progress × σ} (hMade : made = .ok plan)
      (run : Runs plan store world (Progress.start plan, s₀) actions c) :
      Calls made store world s₀ actions (.running plan c)

section

variable {made : Except Error Plan} {store : Store σ} {world : World σ} {s₀ : σ}
  {actions : List Action} {call : Call σ}

/-- Only a call that has no plan returns an error. -/
theorem Calls.made_of_returned_error (calls : Calls made store world s₀ actions call) {e : Error}
    (hReturned : call.returned? = some (.error e)) :
    made = .error e ∧ actions = [] ∧ call = .refused e s₀ := by
  cases calls with
  | refused hMade =>
      cases hReturned
      exact ⟨hMade, rfl, rfl⟩
  | running hMade run =>
      obtain ⟨report, -, hEq⟩ := Option.map_eq_some_iff.mp hReturned
      cases hEq

theorem returned_error_iff {e : Error} :
    (∃ actions call, Calls made store world s₀ actions call ∧ call.returned? = some (.error e)) ↔
      made = .error e := by
  constructor
  · rintro ⟨actions, call, calls, hReturned⟩
    exact (calls.made_of_returned_error hReturned).1
  · exact fun hMade => ⟨[], .refused e s₀, .refused hMade, rfl⟩

/-- A run whose slots can be made comes to its report once nobody can go on. -/
theorem Runs.exists_report_of_stuck {plan : Plan} {c : Progress × σ}
    (run : Runs plan store world (Progress.start plan, s₀) actions c)
    (hLimit : plan.limit ≠ some 0) (hSlots : ∀ n, plan.limit = some n → n ≤ Plan.maxSlots)
    (hReturns : world.Returns) (hStuck : ¬ (Call.running plan c).CanGoOn store world) :
    ∃ report, c.1.report? = some report := by
  obtain ⟨⟨diff, hDiff⟩, hBodies⟩ := hReturns
  choose body hBody using hBodies
  cases hReport : c.1.report? with
  | some report => exact ⟨report, rfl⟩
  | none =>
      have viable := run.viable Begins.created.viable
      have hAborted : c.1.phase ≠ .aborted := by
        intro hAborted
        obtain ⟨n, hSome, hBeyond⟩ := viable.aborted hAborted
        have hWithin := hSlots n hSome
        omega
      obtain ⟨action, hAction, enabled⟩ :=
        viable.exists_step hLimit hAborted hReport store c.2 sampleMoment diff body
      obtain ⟨c', taken⟩ := enabled.2
      exact absurd ⟨_, action, c', hAction, enabled.answers hDiff hBody, taken⟩ hStuck

end

/-- The slots of a plan can be made if the number that was asked for can. -/
theorem Plan.limit_le_of_make {runId : RunId} {workflow : Workflow} {revisions : Revisions}
    {settings : Settings} {newId : Nat → JobId} {detector : Detector} {plan : Plan}
    (hPlan : Plan.make runId workflow revisions settings newId detector = .ok plan)
    (hSlots : ∀ n, settings.maxParallel.or workflow.matrix.maxParallel = some n →
      n ≤ Plan.maxSlots) :
    plan.limit ≠ some 0 ∧ ∀ n, plan.limit = some n → n ≤ Plan.maxSlots := by
  obtain ⟨expansion, -, hExpand, -⟩ := Plan.of_make hPlan
  have hLimit := Plan.limit_of_make hPlan hExpand
  rw [(Matrix.of_expand hExpand).2] at hLimit
  refine ⟨fun hZero => ?_, fun n hSome => ?_⟩
  · have hOne := Plan.one_le_of_limit (hLimit.symm.trans hZero)
    omega
  · obtain ⟨k, hAsked, rfl⟩ := Option.map_eq_some_iff.mp (hLimit.symm.trans hSome)
    exact Nat.max_le.mpr ⟨by decide, hSlots k hAsked⟩

/-- A call returns an error exactly if the workflow is not in order or its matrix does not expand,
and that error is the first of these faults; then nothing has been done or published, and the store
is as it was. Otherwise the jobs can be wired, in a graph without cycles, and the call returns a
report, whatever the listing of paths, the bodies, the store and the bus answer, and whoever
cancels: it never returns an error, it does not go on for ever, and once nobody can go on it has
returned. -/
theorem refused_or_reported {runId : RunId} {workflow : Workflow} {revisions : Revisions}
    {settings : Settings} {newId : Nat → JobId} {detector : Detector} {store : Store σ}
    {world : World σ} {s₀ : σ}
    (hIds : ∀ expansion, workflow.matrix.expand workflow.name newId = .ok expansion →
      (expansion.jobs.map (·.id)).Nodup)
    (hSlots : ∀ n, settings.maxParallel.or workflow.matrix.maxParallel = some n →
      n ≤ Plan.maxSlots)
    (hReturns : world.Returns) {made : Except Error Plan}
    (hMade : made = Plan.make runId workflow revisions settings newId detector) :
    (∀ e, (∃ actions call, Calls made store world s₀ actions call ∧
        call.returned? = some (.error e)) ↔ workflow.Refused newId e) ∧
    (∀ actions call e, Calls made store world s₀ actions call →
      call.returned? = some (.error e) →
        actions = [] ∧ call.published = [] ∧ call.store = s₀) ∧
    ∀ expansion, workflow.check = .ok () →
      workflow.matrix.expand workflow.name newId = .ok expansion →
      (∃ graph, JobGraph.build expansion settings.policy = .ok graph ∧
        ∀ node, ¬ Relation.TransGen graph.Edge node node) ∧
      ∀ actions call, Calls made store world s₀ actions call →
        (∀ e, call.returned? ≠ some (.error e)) ∧
        actions.length ≤ 10 * expansion.jobs.length + 11 ∧
        (¬ call.CanGoOn store world → ∃ report, call.returned? = some (.ok report)) := by
  subst hMade
  refine ⟨fun e => returned_error_iff.trans (Plan.make_eq_error_iff hIds e), ?_, ?_⟩
  · intro actions call e calls hReturned
    obtain ⟨-, hActions, rfl⟩ := calls.made_of_returned_error hReturned
    exact ⟨hActions, rfl, rfl⟩
  · intro expansion hCheck hExpand
    obtain ⟨plan, hPlan, hBuild⟩ :=
      Plan.exists_make runId revisions settings detector hCheck hExpand (hIds _ hExpand)
    refine ⟨⟨plan.graph, hBuild, plan.graph.acyclic⟩, fun actions call calls => ?_⟩
    rw [hPlan] at calls
    cases calls with
    | refused hMade => cases hMade
    | running hMade run =>
        obtain rfl := Except.ok.inj hMade
        obtain ⟨hLimit, hWithin⟩ := Plan.limit_le_of_make hPlan hSlots
        refine ⟨fun e hReturned => ?_, ?_, fun hStuck => ?_⟩
        · obtain ⟨report, -, hEq⟩ := Option.map_eq_some_iff.mp hReturned
          cases hEq
        · have hLength := run.length_add_stepsLeft_le
          rw [stepsLeft_start, (JobGraph.jobs_of_build hBuild).1] at hLength
          omega
        · obtain ⟨report, hReport⟩ := run.exists_report_of_stuck hLimit hWithin hReturns hStuck
          exact ⟨report, by rw [Call.returned?, hReport]; rfl⟩

/-- The sample workflow with a value for a job that its axis has not. -/
def undeclaredWorkflow : Workflow :=
  { sampleWorkflow with
    matrix := { sampleWorkflow.matrix with
      instances := [{ parameters := Table.ofList [("os", "c")] }] } }

/-- The identifiers of the jobs of the sample plan. -/
def sampleId (i : Nat) : JobId := ⟨Uuid.ofNat i⟩

/-- What comes of making a plan of a workflow with the sample identifiers. -/
def sampleMade (workflow : Workflow) : Except Error Plan :=
  Plan.make ⟨Uuid.ofNat 7⟩ workflow ⟨"main", "topic"⟩ { workspace := "." } sampleId

/-- The workflow with the undeclared value is refused for it, with nothing done, and no call for the
sample workflow returns an error. -/
theorem sample_calls_returned :
    (∃ actions call, Calls (sampleMade undeclaredWorkflow) Store.memory sampleWorld ∅ actions call ∧
      call.returned? =
        some (.error (.invalidMatrix "value 'c' is not declared for axis 'os'")) ∧
      actions = [] ∧ call.published = [] ∧ call.store = ∅) ∧
    ∀ actions call, Calls (sampleMade sampleWorkflow) Store.memory sampleWorld ∅ actions call →
      (∀ e, call.returned? ≠ some (.error e)) ∧ actions.length ≤ 31 := by
  have hUndeclared : undeclaredWorkflow.matrix.expand "build" sampleId =
      .error (.undeclaredValue "c" "os") := rfl
  have hSample : sampleWorkflow.matrix.expand "build" sampleId =
      .ok ⟨"build", samplePlan.graph.jobs, some 1⟩ := rfl
  have hReturns : (sampleWorld : World (Table Json)).Returns := ⟨⟨_, rfl⟩, fun _ => ⟨_, rfl⟩⟩
  have hSlots : ∀ n, some 1 = some n → n ≤ Plan.maxSlots := by
    intro n hSome
    obtain rfl := Option.some.inj hSome
    decide
  constructor
  · have hIds : ∀ expansion, undeclaredWorkflow.matrix.expand "build" sampleId = .ok expansion →
        (expansion.jobs.map (·.id)).Nodup := by
      intro expansion hExpand
      rw [hUndeclared] at hExpand
      cases hExpand
    obtain ⟨hRefused, hNothing, -⟩ := @refused_or_reported _ ⟨Uuid.ofNat 7⟩ undeclaredWorkflow
      ⟨"main", "topic"⟩ { workspace := "." } sampleId _ Store.memory _ ∅ hIds hSlots hReturns _ rfl
    obtain ⟨actions, call, calls, hReturned⟩ := (hRefused _).mpr (.expand rfl hUndeclared)
    exact ⟨actions, call, calls, hReturned, hNothing _ _ _ calls hReturned⟩
  · have hIds : ∀ expansion, sampleWorkflow.matrix.expand "build" sampleId = .ok expansion →
        (expansion.jobs.map (·.id)).Nodup := by
      intro expansion hExpand
      obtain rfl := Except.ok.inj (hSample.symm.trans hExpand)
      exact samplePlan.graph.nodup_ids
    obtain ⟨-, -, hReported⟩ := @refused_or_reported _ ⟨Uuid.ofNat 7⟩ sampleWorkflow
      ⟨"main", "topic"⟩ { workspace := "." } sampleId _ Store.memory _ ∅ hIds hSlots hReturns _ rfl
    intro actions call calls
    obtain ⟨hNever, hLength, -⟩ := (hReported _ rfl hSample).2 actions call calls
    exact ⟨hNever, hLength⟩

end ChangeGate.Run
