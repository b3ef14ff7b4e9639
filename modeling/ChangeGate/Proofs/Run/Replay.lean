import ChangeGate.Proofs.Run.Course

/-! Playing a run from a schedule: the actions, each with the moment at which it is taken. The run
is the one that the schedule fixes, with nobody else at the store. -/

namespace ChangeGate.Run

variable {σ : Type} {plan : Plan} {store : Store σ} {world : World σ}

/-- The actions of a schedule, one after another, as long as they can be taken. -/
def replay (plan : Plan) (store : Store σ) :
    List (Action × Moment) → Progress × σ → Option (Progress × σ)
  | [], c => some c
  | (action, m) :: rest, c => (c.1.act? plan store m c.2 action).bind (replay plan store rest)

/-- A run that is played on from a schedule goes on as a run, if each answer of the schedule may be
given wherever the run has come to. -/
theorem Runs.play {schedule : List (Action × Moment)} {start b c : Progress × σ}
    {before : List Action} (run : Runs plan store world start before b)
    (hAnswers : ∀ actions d, Runs plan store world start actions d →
      ∀ entry ∈ schedule, world.Answers plan d.1 entry.1)
    (hPlays : replay plan store schedule b = some c) :
    Runs plan store world start (before ++ schedule.map Prod.fst) c := by
  induction schedule generalizing before b with
  | nil =>
      cases hPlays
      simpa using run
  | cons entry rest ih =>
      obtain ⟨next, hStep, hRest⟩ := Option.bind_eq_some_iff.mp hPlays
      have answers := hAnswers before b run entry List.mem_cons_self
      have further := ih (run.act entry.1 entry.2 answers hStep)
        (fun actions d later e hMem => hAnswers actions d later e (List.mem_cons_of_mem _ hMem))
        hRest
      simpa using further

/-- A schedule that can be played to its end is a run. -/
theorem Runs.of_replay {schedule : List (Action × Moment)} {start c : Progress × σ}
    (hAnswers : ∀ entry ∈ schedule, ∀ p, world.Answers plan p entry.1)
    (hPlays : replay plan store schedule start = some c) :
    Runs plan store world start (schedule.map Prod.fst) c :=
  Runs.start.play (fun _ d _ entry hMem => hAnswers entry hMem d.1) hPlays

/-- A schedule whose end can be checked leads to such an end. -/
theorem Runs.exists_of_replay {schedule : List (Action × Moment)} {start : Progress × σ}
    {check : Progress × σ → Bool}
    (hAnswers : ∀ entry ∈ schedule, ∀ p, world.Answers plan p entry.1)
    (hCheck : (replay plan store schedule start).any check = true) :
    ∃ c, Runs plan store world start (schedule.map Prod.fst) c ∧ check c = true := by
  obtain ⟨c, hPlays, hEnd⟩ := (Option.any_eq_true _ _).mp hCheck
  exact ⟨c, .of_replay hAnswers hPlays, hEnd⟩

/-- Surroundings that answer in one way, with nobody else at the store. -/
def World.fixed (diff : Except Error (List String))
    (body : TaskContext → Except Error TaskResult) : World σ where
  listing := fun paths => paths = diff
  body := fun context result => result = body context
  others := fun _ _ _ => False

/-- A workflow of two jobs that run one at a time, the second whatever the decision. -/
def sampleWorkflow : Workflow where
  name := "build"
  changeDetection := { patterns := ["src/"] }
  matrix :=
    { axes := Table.ofList [("os", ["a", "b"])]
      instances :=
        [{ parameters := Table.ofList [("os", "a")] },
          { parameters := Table.ofList [("os", "b")], alwaysRun := true }]
      maxParallel := some 1 }
  task := { run := "make" }

/-- The plan of the workflow. -/
def samplePlan : Plan where
  run := ⟨Uuid.ofNat 7⟩
  workflow := sampleWorkflow
  revisions := ⟨"main", "topic"⟩
  settings := { workspace := "." }
  detector := Detector.ofWorkflow sampleWorkflow.changeDetection
  graph :=
    { jobs :=
        [⟨⟨Uuid.ofNat 0⟩, 0, "build (os=a)", Table.ofList [("os", "a")], false⟩,
          ⟨⟨Uuid.ofNat 1⟩, 1, "build (os=b)", Table.ofList [("os", "b")], true⟩]
      policy := .respectAlwaysRun
      jobs_ne_nil := by simp
      nodup_ids := by decide }
  limit := some 1

/-- A moment at which the bus takes nothing. -/
def sampleMoment : Moment := ⟨⟨⟨2024, 5, 1⟩, 36000, 0⟩, 0, false⟩

/-- A schedule at that moment. -/
def scheduled (actions : List Action) : List (Action × Moment) := actions.map (·, sampleMoment)

/-- A world in which there is a relevant change and every body succeeds. -/
def sampleWorld : World σ := .fixed (.ok ["src/lib"]) fun _ => .ok ⟨0, true⟩

/-- A run of the plan in that world: the job that waits for nothing starts while the paths are
listed, and the other one after the decision. -/
def sampleSchedule : List (Action × Moment) :=
  scheduled
    [.advance, .advance, .detect, .work 0, .work 1, .work 0, .work 1, .work 1, .work 1, .work 1,
      .listed (.ok ["src/lib"]), .detect, .returned 1 (.ok ⟨0, true⟩), .detect, .work 1, .detect,
      .work 0, .work 0, .work 0, .work 0, .work 0, .work 0, .returned 0 (.ok ⟨0, true⟩), .work 0,
      .advance, .advance, .advance]

theorem sampleSchedule_answers :
    ∀ entry ∈ sampleSchedule, ∀ p, (sampleWorld : World σ).Answers samplePlan p entry.1 := by
  simp [sampleSchedule, scheduled, World.Answers, sampleWorld, World.fixed]

end ChangeGate.Run
