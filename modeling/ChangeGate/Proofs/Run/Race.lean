import ChangeGate.Proofs.Run.Independence
import ChangeGate.Proofs.Run.Liveness
import ChangeGate.Proofs.Store.Contest

/-! Runs that race for one decision: each has its own plan, paths and bodies, and all record their
decision under one key of what they share. The detector of one run comes to hold the key, and the
others are refused; since a worker goes to the gate only after the detector of its own run is ready,
no job goes by the decision of another run. -/

namespace ChangeGate.Run

open Progress

/-- What each of several runs is given: its plan, what comes of listing its paths, and what its
bodies return. -/
structure Racer where
  plan : Plan
  diff : Except Error (List String)
  body : TaskContext → Except Error TaskResult

namespace Racer

variable {σ : Type} (r : Racer)

def world : World σ := .fixed r.diff r.body

/-- The decision that the paths of the run call for. -/
def evaluated : Except Error Decision := r.plan.detector.evaluate r.diff

/-- The truth value that the run has to write, if it has one. -/
def flag : Bool := r.evaluated.toOption.any (·.changesDetected)

theorem flag_of_evaluated {r : Racer} {decision : Decision} (h : r.evaluated = .ok decision) :
    r.flag = decision.changesDetected := by
  simp [flag, h, Except.toOption]

end Racer

variable {ι σ : Type} [DecidableEq ι]

/-- The races of several runs over a medium: the actions, each with the run that takes it, and where
all runs and the medium stand then. A write that a detector has begun may go on at any time. -/
inductive Races (racers : ι → Racer) (medium : Medium ι σ) (s₀ : σ) :
    List (ι × Action) → (ι → Progress) × σ → Prop where
  | start : Races racers medium s₀ [] (fun i => Progress.start (racers i).plan, s₀)
  | act {actions : List (ι × Action)} {ps : ι → Progress} {s : σ} {c : Progress × σ}
      (prior : Races racers medium s₀ actions (ps, s)) (i : ι) (action : Action) (m : Moment)
      (answers : ((racers i).world : World σ).Answers (racers i).plan (ps i) action)
      (taken : (ps i).act? (racers i).plan (medium.handle i) m s action = some c) :
      Races racers medium s₀ (actions ++ [(i, action)]) (Function.update ps i c.1, c.2)
  | drift {actions : List (ι × Action)} {ps : ι → Progress} {s t : σ} {decision : Decision}
      (prior : Races racers medium s₀ actions (ps, s)) (i : ι)
      (hAt : (ps i).detection = .judged (.ok decision))
      (change : medium.drift i (racers i).plan.detector.key decision.changesDetected s t) :
      Races racers medium s₀ actions (ps, t)

/-- What the detector of a run returns, going by who holds the key. -/
def returns (racers : ι → Racer) (holder : Option ι) (i : ι) : Except Error Decision :=
  match (racers i).evaluated with
  | .ok decision =>
    if holder = some i then .ok decision
    else .error (.duplicateWrite (racers i).plan.detector.key)
  | .error e => .error e

/-- The detector of a run has returned this, and if it had a decision, somebody holds the key. -/
structure Returned (racers : ι → Racer) (holder : Option ι) (i : ι)
    (result : Except Error Decision) : Prop where
  result_eq : result = returns racers holder i
  held : ∀ decision, (racers i).evaluated = .ok decision → holder ≠ none

/-- Where the detector of a run stands, going by who holds the key. -/
def Placed (racers : ι → Racer) (holder : Option ι) (i : ι) : Detection → Prop
  | .idle => holder ≠ some i
  | .listing => holder ≠ some i
  | .judged result => result = (racers i).evaluated
  | .recorded result => Returned racers holder i result
  | .announced result => Returned racers holder i result
  | .ended signal decision error =>
      ∃ result, Returned racers holder i result ∧ .ended signal decision error = concluded result

section

variable {racers : ι → Racer} {holder holder' : Option ι} {i j : ι}

theorem returns_of_held {decision : Decision} (hEvaluated : (racers i).evaluated = .ok decision) :
    returns racers (some i) i = .ok decision := by
  simp [returns, hEvaluated]

theorem returns_of_lost {decision : Decision} (hEvaluated : (racers i).evaluated = .ok decision)
    (hLost : holder ≠ some i) :
    returns racers holder i = .error (.duplicateWrite (racers i).plan.detector.key) := by
  simp [returns, hEvaluated, hLost]

theorem returns_of_error {e : Error} (hEvaluated : (racers i).evaluated = .error e) :
    returns racers holder i = .error e := by
  simp [returns, hEvaluated]

/-- Only the run that holds the key has a decision to report. -/
theorem holder_of_returns {decision : Decision} (h : returns racers holder i = .ok decision) :
    holder = some i ∧ (racers i).evaluated = .ok decision := by
  unfold returns at h
  split at h
  · next hEvaluated =>
      split at h
      · next hHolder => exact ⟨hHolder, hEvaluated.trans h⟩
      · cases h
  · cases h

/-- What the detector of a run has returned does not change any more. -/
theorem Returned.mono {result : Except Error Decision} (returned : Returned racers holder j result)
    (takes : Takes i holder holder') : Returned racers holder' j result := by
  rcases takes with rfl | ⟨rfl, rfl⟩
  · exact returned
  · refine ⟨?_, fun _ _ => nofun⟩
    cases hEvaluated : (racers j).evaluated with
    | ok decision => exact absurd rfl (returned.held decision hEvaluated)
    | error e => rw [returned.result_eq, returns_of_error hEvaluated, returns_of_error hEvaluated]

theorem Placed.mono {detection : Detection} (placed : Placed racers holder j detection)
    (takes : Takes i holder holder') (hNe : j ≠ i) : Placed racers holder' j detection := by
  cases detection with
  | idle => exact takes.other hNe placed
  | listing => exact takes.other hNe placed
  | judged result => exact placed
  | recorded result => exact Returned.mono placed takes
  | announced result => exact Returned.mono placed takes
  | ended signal decision error =>
      obtain ⟨result, returned, hConcluded⟩ := placed
      exact ⟨result, returned.mono takes, hConcluded⟩

/-- A detector is ready only if its run holds the key. -/
theorem Placed.holder_of_ready {detection : Detection} (placed : Placed racers holder i detection)
    (hReady : detection.signal = .ready) : holder = some i := by
  cases detection with
  | ended signal decision error =>
      obtain ⟨result, returned, hConcluded⟩ := placed
      rw [hConcluded] at hReady
      obtain ⟨d, rfl⟩ := ok_of_concluded hReady
      exact (holder_of_returns returned.result_eq.symm).1
  | _ => cases hReady

end

/-- Where all runs of a race stand, and who holds the key. -/
structure Standings (racers : ι → Racer) (Holds : σ → Option ι → Set ι → Prop)
    (ps : ι → Progress) (s : σ) (holder : Option ι) : Prop where
  uncancelled : ∀ i, (ps i).cancelled = false
  holds : Holds s holder {i | (ps i).detection.tried = false}
  placed : ∀ i, Placed racers holder i (ps i).detection

section

variable {racers : ι → Racer} {medium : Medium ι σ} {key : String} {s₀ s t : σ}
  {Holds : σ → Option ι → Set ι → Prop} {holder : Option ι} {ps : ι → Progress} {i : ι}
  (hKey : ∀ i, (racers i).plan.detector.key = key)
  (contests : medium.Contests key (fun i => (racers i).flag) Holds)

include hKey contests

/-- A step of the detector of a run that is not cancelled. Only when its write returns may it come
to hold the key. -/
theorem DetectorMove.standings {m : Moment} {p : Progress} {action : Action} {f : Finding σ}
    {waiting : Set ι} (move : DetectorMove (racers i).plan (medium.handle i) m p s action f)
    (answers : ((racers i).world : World σ).Answers (racers i).plan p action)
    (hCancelled : p.cancelled = false) (placed : Placed racers holder i p.detection)
    (holds : Holds s holder waiting) (hWaiting : p.detection.tried = false → i ∈ waiting) :
    ∃ holder', Takes i holder holder' ∧ Placed racers holder' i f.detection ∧
      Holds f.state holder' {j ∈ waiting | j = i → f.detection.tried = false} := by
  have hSame : Placed racers holder i f.detection → f.state = s →
      ∃ holder', Takes i holder holder' ∧ Placed racers holder' i f.detection ∧
        Holds f.state holder' {j ∈ waiting | j = i → f.detection.tried = false} :=
    fun placed' hState => ⟨holder, .refl i holder, placed',
      contests.fewer (hState ▸ holds) fun j hj => hj.1⟩
  cases move with
  | stop hAt hStop => rw [hCancelled] at hStop; cases hStop
  | giveUp hStop hAt => rw [hCancelled] at hStop; cases hStop
  | list hAt hGo => rw [hAt] at placed; exact hSame placed rfl
  | judge hAt =>
      obtain rfl := answers
      exact hSame rfl rfl
  | @write decision hAt =>
      rw [hAt] at placed hWaiting
      have hEvaluated : (racers i).evaluated = .ok decision := placed.symm
      obtain ⟨holder', takes, hHeld, hResult, hAfter⟩ := contests.put holds (hWaiting rfl)
      rw [Racer.flag_of_evaluated hEvaluated, ← hKey i] at hResult hAfter
      refine ⟨holder', takes, ⟨?_, fun _ _ => hHeld⟩, contests.fewer hAfter fun j hj => ⟨hj.1, ?_⟩⟩
      · rw [hResult]
        by_cases hWon : holder' = some i
        · rw [if_pos hWon, hWon, returns_of_held hEvaluated]
          rfl
        · rw [if_neg hWon, returns_of_lost hEvaluated hWon]
          rfl
      · exact fun hOwn => nomatch hj.2 hOwn
  | @pass e hAt =>
      rw [hAt] at placed
      have hEvaluated : (racers i).evaluated = .error e := placed.symm
      refine hSame ⟨(returns_of_error hEvaluated).symm, fun decision h => ?_⟩ rfl
      rw [hEvaluated] at h
      cases h
  | announce hAt => rw [hAt] at placed; exact hSame placed rfl
  | announceError hAt => rw [hAt] at placed; exact hSame placed rfl
  | release hAt => rw [hAt] at placed; exact hSame ⟨_, placed, rfl⟩ rfl
  | fail hAt => rw [hAt] at placed; exact hSame ⟨_, placed, rfl⟩ rfl

/-- One action of one run that nobody cancels. -/
theorem Standings.act {m : Moment} {action : Action} {c : Progress × σ}
    (standings : Standings racers Holds ps s holder) (hAction : action ≠ .cancel)
    (answers : ((racers i).world : World σ).Answers (racers i).plan (ps i) action)
    (taken : (ps i).act? (racers i).plan (medium.handle i) m s action = some c) :
    ∃ holder', Takes i holder holder' ∧
      Standings racers Holds (Function.update ps i c.1) c.2 holder' := by
  have change := Change.of_act? taken
  have hStep : ∃ holder', Takes i holder holder' ∧ c.1.cancelled = false ∧
      Placed racers holder' i c.1.detection ∧
      Holds c.2 holder' {j ∈ {j | (ps j).detection.tried = false} |
        j = i → c.1.detection.tried = false} := by
    have hCancelled := standings.uncancelled i
    have placed := standings.placed i
    have hKept : Holds s holder {j ∈ {j | (ps j).detection.tried = false} |
        j = i → c.1.detection.tried = false} := contests.fewer standings.holds fun j hj => hj.1
    cases change with
    | advanced move =>
        refine ⟨holder, .refl i holder, ?_, ?_, hKept⟩
        · cases move <;> exact hCancelled
        · cases move <;> exact placed
    | cancelled hStart => exact absurd rfl hAction
    | turned hActive hWorker move => exact ⟨holder, .refl i holder, hCancelled, placed, hKept⟩
    | found hActive move =>
        obtain ⟨holder', takes, placed', holds'⟩ :=
          move.standings hKey contests answers hCancelled placed standings.holds id
        exact ⟨holder', takes, hCancelled, placed', holds'⟩
  obtain ⟨holder', takes, hCancelled, placed, holds⟩ := hStep
  refine ⟨holder', takes, fun j => ?_, contests.fewer holds fun j hj => ?_, fun j => ?_⟩
  · by_cases hj : j = i
    · subst hj
      rwa [Function.update_self]
    · rw [Function.update_of_ne hj]
      exact standings.uncancelled j
  · by_cases hOwn : j = i
    · subst hOwn
      rw [Set.mem_ofPred_eq, Function.update_self] at hj
      refine ⟨?_, fun _ => hj⟩
      cases hTried : (ps j).detection.tried with
      | false => exact hTried
      | true => rw [change.tried_mono hTried] at hj; cases hj
    · rw [Set.mem_ofPred_eq, Function.update_of_ne hOwn] at hj
      exact ⟨hj, fun h => absurd h hOwn⟩
  · by_cases hj : j = i
    · subst hj
      rwa [Function.update_self]
    · rw [Function.update_of_ne hj]
      exact (standings.placed j).mono takes hj

/-- A write that a detector has begun goes on. -/
theorem Standings.drift {decision : Decision} (standings : Standings racers Holds ps s holder)
    (hAt : (ps i).detection = .judged (.ok decision))
    (change : medium.drift i (racers i).plan.detector.key decision.changesDetected s t) :
    ∃ holder', Takes i holder holder' ∧ Standings racers Holds ps t holder' := by
  have placed := standings.placed i
  rw [hAt] at placed
  have hFlag : (racers i).flag = decision.changesDetected := Racer.flag_of_evaluated placed.symm
  rw [hKey, ← hFlag] at change
  obtain ⟨holder', takes, holds⟩ := contests.drift standings.holds
    (show (ps i).detection.tried = false by rw [hAt]; rfl) change
  refine ⟨holder', takes, standings.uncancelled, holds, fun j => ?_⟩
  by_cases hj : j = i
  · subst hj
    rw [hAt]
    exact placed
  · exact (standings.placed j).mono takes hj

variable {actions : List (ι × Action)} {c : (ι → Progress) × σ}

/-- At any moment of a race that nobody cancels, the runs stand as the holder of the key says. -/
theorem Races.standings (hFree : Holds s₀ none Set.univ)
    (race : Races racers medium s₀ actions c) (hUncancelled : ∀ i, (i, .cancel) ∉ actions) :
    ∃ holder, Standings racers Holds c.1 c.2 holder := by
  induction race with
  | start =>
      exact ⟨none, fun i => rfl, contests.fewer hFree (Set.subset_univ _), fun i => nofun⟩
  | act prior i action m answers taken ih =>
      obtain ⟨holder, standings⟩ := ih fun j hMem => hUncancelled j (List.mem_append_left _ hMem)
      have hAction : action ≠ .cancel := by
        rintro rfl
        exact hUncancelled i (by simp)
      obtain ⟨holder', -, next⟩ := standings.act hKey contests hAction answers taken
      exact ⟨holder', next⟩
  | drift prior i hAt change ih =>
      obtain ⟨holder, standings⟩ := ih hUncancelled
      obtain ⟨holder', -, next⟩ := standings.drift hKey contests hAt change
      exact ⟨holder', next⟩

omit hKey in
/-- Once the detector of a run is ready, what others do does not change what the run reads. -/
theorem Standings.get_eq {ps' : ι → Progress} {holder' : Option ι} {j : ι}
    (standings : Standings racers Holds ps s holder) (next : Standings racers Holds ps' t holder')
    (takes : Takes j holder holder') (hReady : (ps i).detection.signal = .ready) :
    (medium.handle i).get t key = (medium.handle i).get s key := by
  have hHolder := (standings.placed i).holder_of_ready hReady
  rw [contests.get standings.holds, contests.get next.holds, hHolder, takes.kept hHolder]

end

/-- The actions of one run in a race. -/
def actionsOf (i : ι) (actions : List (ι × Action)) : List Action :=
  (actions.filter (·.1 = i)).map (·.2)

/-- What surrounds one run of a race: the others may do anything to the medium that does not change
what the run reads once its detector is ready. -/
def Racer.beside (r : Racer) (store : Store σ) : World σ :=
  { (r.world : World σ) with
    others := fun p s t => p.detection.signal = .ready →
      store.get t r.plan.detector.key = store.get s r.plan.detector.key }

section

variable {racers : ι → Racer} {medium : Medium ι σ} {key : String} {s₀ : σ}
  {Holds : σ → Option ι → Set ι → Prop} {actions : List (ι × Action)} {c : (ι → Progress) × σ}

/-- Each run of a race is a run of its own plan. -/
theorem Races.runs (hKey : ∀ i, (racers i).plan.detector.key = key)
    (contests : medium.Contests key (fun i => (racers i).flag) Holds)
    (hFree : Holds s₀ none Set.univ) (race : Races racers medium s₀ actions c)
    (hUncancelled : ∀ i, (i, .cancel) ∉ actions) (i : ι) :
    Runs (racers i).plan (medium.handle i) ((racers i).beside (medium.handle i))
      (Progress.start (racers i).plan, s₀) (actionsOf i actions) (c.1 i, c.2) := by
  induction race with
  | start => exact .start
  | @act actions ps s c prior j action m answers taken ih =>
      have hBefore : ∀ k, (k, .cancel) ∉ actions := fun k hMem =>
        hUncancelled k (List.mem_append_left _ hMem)
      have hAction : action ≠ .cancel := by
        rintro rfl
        exact hUncancelled j (by simp)
      by_cases hOwn : j = i
      · subst hOwn
        have hActions : actionsOf j (actions ++ [(j, action)]) =
            actionsOf j actions ++ [action] := by
          simp [actionsOf]
        have hSame : (Function.update ps j c.1 j, c.2) = c := by rw [Function.update_self]
        rw [hActions, hSame]
        exact .act (ih hBefore) action m (by cases action <;> exact answers) taken
      · have hActions : actionsOf i (actions ++ [(j, action)]) = actionsOf i actions := by
          simp [actionsOf, hOwn]
        obtain ⟨holder, standings⟩ := prior.standings hKey contests hFree hBefore
        obtain ⟨holder', takes, next⟩ := standings.act hKey contests hAction answers taken
        change Runs _ _ _ _ _ (Function.update ps j c.1 i, c.2)
        rw [hActions, Function.update_of_ne (Ne.symm hOwn)]
        refine .others (ih hBefore) fun hReady => ?_
        rw [hKey]
        exact standings.get_eq contests next takes hReady
  | drift prior j hAt change ih =>
      obtain ⟨holder, standings⟩ := prior.standings hKey contests hFree hUncancelled
      obtain ⟨holder', takes, next⟩ := standings.drift hKey contests hAt change
      refine .others (ih hUncancelled) fun hReady => ?_
      rw [hKey]
      exact standings.get_eq contests next takes hReady

end

section

variable {plan : Plan} {store : Store σ} {world : World σ} {s₀ : σ} {actions : List Action}
  {c start : Progress × σ} {report : RunReport}

/-- The gate goes on answering what it has answered, if others leave its key alone from when the
detector is ready. -/
theorem Asked.check_eq_of_ready {answer : Except Error Verdict}
    (hKept : ∀ p s t, world.others p s t → p.detection.signal = .ready →
      store.get t plan.detector.key = store.get s plan.detector.key)
    (asked : Asked plan store world start actions c answer) :
    store.check c.2 plan.detector.key = answer := by
  obtain ⟨q, t, ⟨before, after, -, -, run⟩, hReady, rfl⟩ := asked
  have hGet : store.get c.2 plan.detector.key = store.get t plan.detector.key := by
    cases hAt : q.detection with
    | ended signal decision error =>
        rw [hAt] at hReady
        cases hReady
        induction run with
        | start => rfl
        | @act actions p s c prior action m answers taken ih =>
            have hNow : p.detection = _ := prior.ended_mono hAt
            rw [(Change.of_act? taken).store_eq (.inl (by rw [hNow]; rfl))]
            exact ih
        | @others actions p s t' prior change ih =>
            have hNow : p.detection = _ := prior.ended_mono hAt
            rw [hKept _ _ _ change (by rw [hNow]; rfl)]
            exact ih
    | _ => simp [hAt, Detection.signal] at hReady
  simp only [Store.check, Store.getFlag, hGet]

/-- Whether a job that waits for the decision ends like this only after the gate. -/
def isAfterGate : Outcome → Bool
  | .succeeded => true
  | .failed => true
  | .skipped => true
  | _ => false

/-- Whether the worker of a gated job at a stage has been let through or turned back by the gate. -/
def Stage.isPastGate : Stage → Bool
  | .starting => true
  | .running .. => true
  | .finishing ending _ => isAfterGate ending.outcome
  | .done report => isAfterGate report.outcome
  | _ => false

theorem Due.ready {w : Worker} {ending : Ending}
    (due : Due plan store world start actions c w ending) (hGated : w.gated = true)
    (hAfter : isAfterGate ending.outcome = true) : c.1.detection.signal = .ready := by
  cases due with
  | skipped hGated' asked => exact asked.ready
  | returned cleared answered => exact (cleared hGated).ready
  | _ => cases hAfter

/-- A gated job gets past the gate only if the detector of its own run is ready. -/
theorem Runs.ready_of_isPastGate
    (run : Runs plan store world (Progress.start plan, s₀) actions c) {w : Worker}
    (hMem : w ∈ c.1.workers) (hGated : w.gated = true) (hPast : w.stage.isPastGate = true) :
    c.1.detection.signal = .ready := by
  have sound := run.sound w hMem
  cases hAt : w.stage with
  | starting => rw [hAt] at sound; exact (sound hGated).ready
  | running => rw [hAt] at sound; exact (sound hGated).ready
  | finishing ending holdsSlot =>
      rw [hAt] at sound hPast
      exact Due.ready sound hGated hPast
  | done report =>
      rw [hAt] at sound hPast
      obtain ⟨ending, completedAt, due, rfl⟩ := sound
      exact due.ready hGated hPast
  | _ => rw [hAt] at hPast; cases hPast

/-- A job that has neither succeeded nor failed has not been started. -/
theorem Runs.startedAt_eq_none (run : Runs plan store world (Progress.start plan, s₀) actions c)
    (hReport : c.1.report? = some report) {r : JobReport} (hMem : r ∈ report.jobs)
    (hOutcome : ¬ (r.outcome = .succeeded ∨ r.outcome = .failed)) : r.startedAt = none := by
  rw [(run.agrees_of_report? hReport).jobs_eq] at hMem
  obtain ⟨w, hWorker, hStage⟩ := List.mem_filterMap.mp hMem
  obtain ⟨ending, completedAt, due, rfl⟩ := run.due_of_done hWorker (stage_of_report? hStage)
  exact Option.not_isSome_iff_eq_none.mp fun hStarted => hOutcome (due.started_iff.mp hStarted)

end

/-- How a job ended, apart from when. -/
def howEnded (r : JobReport) : Bool × Outcome × Option Int × Option String :=
  (r.gated, r.outcome, r.exitCode, r.message)

/-- How a job of a run ends that nobody cancels, going by what the detector of the run returned. -/
def Racer.ends (r : Racer) (detected : Except Error Decision) (job : Job) :
    Bool × Outcome × Option Int × Option String :=
  (r.plan.isGated job,
    settle (r.plan.isGated job) detected (.ok r.flag) (r.body (r.plan.context job)))

theorem settle_of_error {detected : Except Error Decision} {e : Error} (gated : Bool)
    (flag flag' : Except Error Bool) (result : Except Error TaskResult)
    (h : detected = .error e) :
    settle gated detected flag result = settle gated detected flag' result := by
  subst h
  cases gated <;> rfl

section

variable {racers : ι → Racer} {medium : Medium ι σ} {key : String} {s₀ : σ}
  {Holds : σ → Option ι → Set ι → Prop} {actions : List (ι × Action)} {c : (ι → Progress) × σ}
  {holder : Option ι} {i : ι} {report : RunReport}

/-- The detector of a run that has reported has returned what the holder of the key says. -/
theorem Standings.concluded_of_report {ps : ι → Progress} {s : σ}
    (standings : Standings racers Holds ps s holder)
    (agrees : Agrees (racers i).plan (ps i) report) :
    Returned racers holder i (returns racers holder i) ∧
      (ps i).detection = concluded (returns racers holder i) ∧
      (report.decision, report.detectorError) = findings (returns racers holder i) := by
  obtain ⟨signal, hEnded⟩ := agrees.ended
  have placed := standings.placed i
  rw [hEnded] at placed
  obtain ⟨result, returned, hConcluded⟩ := placed
  obtain rfl := returned.result_eq
  exact ⟨returned, hEnded.trans hConcluded, findings_of_concluded hConcluded⟩

/-- How the jobs of a run end in a race is settled by its own data and by who holds the key. -/
theorem Races.jobs_eq (hKey : ∀ i, (racers i).plan.detector.key = key)
    (contests : medium.Contests key (fun i => (racers i).flag) Holds)
    (hFree : Holds s₀ none Set.univ) (race : Races racers medium s₀ actions c)
    (hUncancelled : ∀ i, (i, .cancel) ∉ actions)
    (standings : Standings racers Holds c.1 c.2 holder) (hReport : (c.1 i).report? = some report) :
    report.jobs.map howEnded =
      (racers i).plan.graph.jobs.map ((racers i).ends (returns racers holder i)) := by
  have run := race.runs hKey contests hFree hUncancelled i
  have agrees := run.agrees_of_report? hReport
  obtain ⟨-, hDetection, -⟩ := standings.concluded_of_report agrees
  have hFailed : (c.1 i).detection.signal = .failed →
      ∃ e, returns racers holder i = .error e := by
    rw [hDetection]
    exact error_of_concluded
  have hAsked : ∀ answer, Asked (racers i).plan (medium.handle i)
      ((racers i).beside (medium.handle i)) (Progress.start (racers i).plan, s₀)
      (actionsOf i actions) (c.1 i, c.2) answer →
      (∃ decision, returns racers holder i = .ok decision) ∧
        (medium.handle i).check c.2 (racers i).plan.detector.key = answer := by
    intro answer asked
    have hReady : (c.1 i).detection.signal = .ready := asked.ready
    rw [hDetection] at hReady
    exact ⟨ok_of_concluded hReady, asked.check_eq_of_ready fun _ _ _ h => h⟩
  have hSettle : ∀ gated result,
      settle gated (returns racers holder i)
          ((medium.handle i).getFlag c.2 (racers i).plan.detector.key) result =
        settle gated (returns racers holder i) (.ok (racers i).flag) result := by
    intro gated result
    cases hReturns : returns racers holder i with
    | error e => exact settle_of_error gated _ _ result rfl
    | ok decision =>
        have hGet := contests.get standings.holds i
        rw [(holder_of_returns hReturns).1] at hGet
        rw [hKey, Store.getFlag_of_get hGet]
  refine (run.map_reports agrees fun w hMem r hGated hDone => ?_).symm
  obtain ⟨ending, completedAt, due, rfl⟩ := run.due_of_done hMem hDone
  rcases due.settled (fun _ _ h => h) hFailed hAsked with ⟨hCancelled, -⟩ | hSettled
  · exact absurd hCancelled (by rw [standings.uncancelled i]; exact Bool.false_ne_true)
  · rw [hSettle] at hSettled
    rw [Racer.ends, ← hGated, ← hSettled]
    rfl

/-- One run of a race goes on while the others stand still. -/
theorem Races.trans_runs {ps : ι → Progress} {s : σ} {more : List Action} {d : Progress × σ}
    (prior : Races racers medium s₀ actions (ps, s))
    (run : Runs (racers i).plan (medium.handle i) (racers i).world (ps i, s) more d) :
    Races racers medium s₀ (actions ++ more.map (i, ·)) (Function.update ps i d.1, d.2) := by
  induction run with
  | start =>
      rw [Function.update_eq_self, List.map_nil, List.append_nil]
      exact prior
  | @act more p s d before action m answers taken ih =>
      have hOwn : Function.update ps i p i = p := Function.update_self ..
      have next := ih.act i action m (by rw [hOwn]; exact answers) (by rw [hOwn]; exact taken)
      rw [Function.update_idem] at next
      rw [List.map_append, ← List.append_assoc]
      exact next
  | others before change ih => exact change.elim

/-- Alone, a run that has a decision comes to hold the key. -/
theorem Standings.holder_of_alone {p : Progress} {s : σ} {decision : Decision}
    (standings : Standings racers Holds
      (Function.update (fun j => Progress.start (racers j).plan) i p) s holder)
    (agrees : Agrees (racers i).plan p report) (hEvaluated : (racers i).evaluated = .ok decision) :
    holder = some i := by
  have agrees' : Agrees (racers i).plan
      (Function.update (fun j => Progress.start (racers j).plan) i p i) report := by
    rwa [Function.update_self]
  obtain ⟨returned, -, -⟩ := standings.concluded_of_report agrees'
  cases hHolder : holder with
  | none => exact absurd hHolder (returned.held decision hEvaluated)
  | some j =>
      by_cases hj : j = i
      · rw [hj]
      · have placed := standings.placed j
        rw [Function.update_of_ne hj] at placed
        exact absurd hHolder placed

end

/-- A run goes by a decision: it has reported one, or a gated job of it has got past the gate. -/
def GoesByDecision (p : Progress) : Prop :=
  (∃ report decision, p.report? = some report ∧ report.decision = some decision) ∨
    ∃ w ∈ p.workers, w.gated = true ∧ w.stage.isPastGate = true

/-- What one of the runs may report if it is alone with the medium and nobody cancels it. -/
def ReportsAlone (racers : ι → Racer) (medium : Medium ι σ) (s₀ : σ) (i : ι)
    (report : RunReport) : Prop :=
  ∃ actions c, Runs (racers i).plan (medium.handle i) (racers i).world
    (Progress.start (racers i).plan, s₀) actions c ∧ .cancel ∉ actions ∧ c.1.report? = some report

omit [DecidableEq ι] in
/-- A run can come to a report alone, if its slots can be made. -/
theorem exists_reportsAlone {racers : ι → Racer} {i : ι} (medium : Medium ι σ) (s₀ : σ)
    (hLimit : (racers i).plan.limit ≠ some 0)
    (hSlots : ∀ n, (racers i).plan.limit = some n → n ≤ Plan.maxSlots) :
    ∃ report, ReportsAlone racers medium s₀ i report := by
  have begun : Runs (racers i).plan (medium.handle i) (racers i).world
      (Progress.start (racers i).plan, s₀) [] _ := .start
  have hReturns : ((racers i).world : World σ).Returns := ⟨⟨_, rfl⟩, fun _ => ⟨_, rfl⟩⟩
  obtain ⟨actions, c, report, run, hUncancelled, hReport, -⟩ :=
    begun.exists_completion .created hLimit hReturns fun _ => hSlots
  exact ⟨report, actions, c, run, hUncancelled, hReport⟩

/-- A run reports its own decision, and all its jobs have ended as if it were alone. -/
structure Won (alone : RunReport → Prop) (decision : Decision) (report : RunReport) : Prop where
  reported : report.decision = some decision ∧ report.detectorError = none
  as_alone : ∀ other, alone other →
    other.decision = some decision ∧ report.jobs.map howEnded = other.jobs.map howEnded

/-- A run reports that the key is taken: none of its gated jobs was started or skipped, and the
others have ended as if it were alone. -/
structure Lost (alone : RunReport → Prop) (key : String) (report : RunReport) : Prop where
  reported : report.decision = none ∧
    report.detectorError = some (Error.duplicateWrite key).message
  gated : ∀ r ∈ report.jobs, r.gated = true → r.outcome = .upstreamFailure ∧ r.startedAt = none
  ungated_as_alone : ∀ other, alone other →
    (report.jobs.map howEnded).filter (!·.1) = (other.jobs.map howEnded).filter (!·.1)

/-- How an ungated job ends does not hang on what the detector returned. -/
theorem Racer.filter_ends (r : Racer) (detected detected' : Except Error Decision)
    (jobs : List Job) :
    (jobs.map (r.ends detected)).filter (!·.1) = (jobs.map (r.ends detected')).filter (!·.1) := by
  rw [List.filter_map, List.filter_map]
  refine List.map_congr_left fun job hMem => ?_
  have hUngated : r.plan.isGated job = false := by simpa [ends] using (List.mem_filter.mp hMem).2
  simp only [ends, hUngated, settle, Bool.false_eq_true, if_false]

section

variable {racers : ι → Racer} {medium : Medium ι σ} {key : String} {s₀ : σ}
  {Holds : σ → Option ι → Set ι → Prop} {actions : List (ι × Action)} {c : (ι → Progress) × σ}
  {holder : Option ι} {i : ι} {report : RunReport} {decision : Decision}
  (hKey : ∀ i, (racers i).plan.detector.key = key)
  (contests : medium.Contests key (fun i => (racers i).flag) Holds)
  (hFree : Holds s₀ none Set.univ)

include hKey contests hFree

/-- Alone, a run that has a decision reports it, and its jobs end by it. -/
theorem ReportsAlone.settled (alone : ReportsAlone racers medium s₀ i report)
    (hEvaluated : (racers i).evaluated = .ok decision) :
    report.decision = some decision ∧
      report.jobs.map howEnded =
        (racers i).plan.graph.jobs.map ((racers i).ends (.ok decision)) := by
  obtain ⟨actions, d, run, hUncancelled, hReport⟩ := alone
  have race : Races racers medium s₀ _ _ := Races.start.trans_runs run
  have hCancel : ∀ j, (j, .cancel) ∉ [] ++ actions.map (i, ·) := by
    simpa using hUncancelled
  obtain ⟨holder, standings⟩ := race.standings hKey contests hFree hCancel
  obtain rfl := standings.holder_of_alone (run.agrees_of_report? hReport) hEvaluated
  have hOwn : (Function.update (fun j => Progress.start (racers j).plan) i d.1 i).report? =
      some report := by
    rwa [Function.update_self]
  have agrees := (race.runs hKey contests hFree hCancel i).agrees_of_report? hOwn
  obtain ⟨-, -, hFindings⟩ := standings.concluded_of_report agrees
  have hJobs := race.jobs_eq hKey contests hFree hCancel standings hOwn
  rw [returns_of_held hEvaluated] at hFindings hJobs
  exact ⟨congrArg Prod.fst hFindings, hJobs⟩

/-- Only the run that holds the key goes by a decision. -/
theorem Races.holder_of_goesByDecision (race : Races racers medium s₀ actions c)
    (hUncancelled : ∀ i, (i, .cancel) ∉ actions)
    (standings : Standings racers Holds c.1 c.2 holder) (goes : GoesByDecision (c.1 i)) :
    holder = some i := by
  have run := race.runs hKey contests hFree hUncancelled i
  rcases goes with ⟨report, decision, hReport, hDecision⟩ | ⟨w, hMem, hGated, hPast⟩
  · obtain ⟨-, -, hFindings⟩ := standings.concluded_of_report (run.agrees_of_report? hReport)
    cases hReturns : returns racers holder i with
    | ok d => exact (holder_of_returns hReturns).1
    | error e =>
        rw [hReturns, hDecision] at hFindings
        cases hFindings
  · exact (standings.placed i).holder_of_ready (run.ready_of_isPastGate hMem hGated hPast)

theorem Races.won (race : Races racers medium s₀ actions c)
    (hUncancelled : ∀ i, (i, .cancel) ∉ actions)
    (standings : Standings racers Holds c.1 c.2 (some i)) (hReport : (c.1 i).report? = some report)
    (hEvaluated : (racers i).evaluated = .ok decision) :
    Won (ReportsAlone racers medium s₀ i) decision report := by
  have run := race.runs hKey contests hFree hUncancelled i
  obtain ⟨-, -, hFindings⟩ := standings.concluded_of_report (run.agrees_of_report? hReport)
  have hJobs := race.jobs_eq hKey contests hFree hUncancelled standings hReport
  rw [returns_of_held hEvaluated] at hFindings hJobs
  refine ⟨Prod.mk.inj hFindings, fun other alone => ?_⟩
  obtain ⟨hDecision, hOther⟩ := alone.settled hKey contests hFree hEvaluated
  exact ⟨hDecision, hJobs.trans hOther.symm⟩

theorem Races.lost (race : Races racers medium s₀ actions c)
    (hUncancelled : ∀ i, (i, .cancel) ∉ actions)
    (standings : Standings racers Holds c.1 c.2 holder) (hLost : holder ≠ some i)
    (hReport : (c.1 i).report? = some report) (hEvaluated : (racers i).evaluated = .ok decision) :
    Lost (ReportsAlone racers medium s₀ i) key report := by
  have run := race.runs hKey contests hFree hUncancelled i
  obtain ⟨-, -, hFindings⟩ := standings.concluded_of_report (run.agrees_of_report? hReport)
  have hJobs := race.jobs_eq hKey contests hFree hUncancelled standings hReport
  rw [returns_of_lost hEvaluated hLost, hKey] at hFindings hJobs
  refine ⟨Prod.mk.inj hFindings, fun r hMem hGated => ?_, fun other alone => ?_⟩
  · have hHow : howEnded r ∈ report.jobs.map howEnded := List.mem_map_of_mem hMem
    rw [hJobs] at hHow
    obtain ⟨job, -, hEnds⟩ := List.mem_map.mp hHow
    obtain ⟨hGated', hSettle⟩ := Prod.mk.inj hEnds
    rw [hGated', hGated] at hSettle
    have hOutcome : r.outcome = .upstreamFailure := (Prod.mk.inj hSettle).1.symm
    refine ⟨hOutcome, run.startedAt_eq_none hReport hMem ?_⟩
    rw [hOutcome]
    rintro (h | h) <;> cases h
  · rw [hJobs, (alone.settled hKey contests hFree hEvaluated).2]
    exact (racers i).filter_ends _ _ _

end

/-- Runs that race for one decision, whatever their plans, paths and bodies, over the store in
memory or by handles to one directory, under a key that was absent, in any order of all their steps,
and if nobody cancels them: at any moment at most one of them goes by a decision. A run whose paths
call for a decision has won or lost when it reports. If that is so of all of them and all have
reported, exactly one has won and the others have lost. -/
theorem one_run_wins {racers : ι → Racer} {medium : Medium ι σ} {key : String} {s₀ : σ}
    (hKey : ∀ i, (racers i).plan.detector.key = key) (offered : Medium.Offered medium s₀ key)
    {actions : List (ι × Action)} {c : (ι → Progress) × σ}
    (race : Races racers medium s₀ actions c) (hUncancelled : ∀ i, (i, .cancel) ∉ actions) :
    (∀ i j, GoesByDecision (c.1 i) → GoesByDecision (c.1 j) → i = j) ∧
      (∀ i report decision, (c.1 i).report? = some report → (racers i).evaluated = .ok decision →
        Won (ReportsAlone racers medium s₀ i) decision report ∨
          Lost (ReportsAlone racers medium s₀ i) key report) ∧
      ∀ (reports : ι → RunReport) (decisions : ι → Decision), Nonempty ι →
        (∀ i, (c.1 i).report? = some (reports i)) →
        (∀ i, (racers i).evaluated = .ok (decisions i)) →
          ∃ winner, Won (ReportsAlone racers medium s₀ winner) (decisions winner) (reports winner) ∧
            ∀ i, i ≠ winner → Lost (ReportsAlone racers medium s₀ i) key (reports i) := by
  obtain ⟨Holds, contests, hFree⟩ := offered.contests fun i => (racers i).flag
  obtain ⟨holder, standings⟩ := race.standings hKey contests hFree hUncancelled
  refine ⟨fun i j hi hj => ?_, fun i report decision hReport hEvaluated => ?_, ?_⟩
  · have hI := race.holder_of_goesByDecision hKey contests hFree hUncancelled standings hi
    have hJ := race.holder_of_goesByDecision hKey contests hFree hUncancelled standings hj
    exact Option.some.inj (hI.symm.trans hJ)
  · by_cases hHolder : holder = some i
    · subst hHolder
      exact .inl (race.won hKey contests hFree hUncancelled standings hReport hEvaluated)
    · exact .inr (race.lost hKey contests hFree hUncancelled standings hHolder hReport hEvaluated)
  · rintro reports decisions ⟨first⟩ hReports hEvaluated
    have agrees := (race.runs hKey contests hFree hUncancelled first).agrees_of_report?
      (hReports first)
    obtain ⟨returned, -, -⟩ := standings.concluded_of_report agrees
    obtain ⟨winner, rfl⟩ :=
      Option.ne_none_iff_exists'.mp (returned.held (decisions first) (hEvaluated first))
    refine ⟨winner, race.won hKey contests hFree hUncancelled standings (hReports winner)
      (hEvaluated winner), fun i hNe => ?_⟩
    exact race.lost hKey contests hFree hUncancelled standings
      (fun h => hNe (Option.some.inj h).symm) (hReports i) (hEvaluated i)

/-- The actions of a schedule of several runs, one after another, as long as they can be taken. -/
def replayRace (racers : ι → Racer) (medium : Medium ι σ) :
    List (ι × Action × Moment) → (ι → Progress) × σ → Option ((ι → Progress) × σ)
  | [], c => some c
  | (i, action, m) :: rest, c =>
    ((c.1 i).act? (racers i).plan (medium.handle i) m c.2 action).bind fun d =>
      replayRace racers medium rest (Function.update c.1 i d.1, d.2)

/-- A schedule that can be played to its end is a race. -/
theorem Races.of_replay {racers : ι → Racer} {medium : Medium ι σ} {s₀ : σ}
    {schedule : List (ι × Action × Moment)} {before : List (ι × Action)}
    {b c : (ι → Progress) × σ} (prior : Races racers medium s₀ before b)
    (hAnswers : ∀ e ∈ schedule, ∀ p,
      ((racers e.1).world : World σ).Answers (racers e.1).plan p e.2.1)
    (hPlays : replayRace racers medium schedule b = some c) :
    Races racers medium s₀ (before ++ schedule.map fun e => (e.1, e.2.1)) c := by
  induction schedule generalizing before b with
  | nil =>
      cases hPlays
      simpa using prior
  | cons e rest ih =>
      obtain ⟨i, action, m⟩ := e
      obtain ⟨d, hStep, hRest⟩ := Option.bind_eq_some_iff.mp hPlays
      have next := prior.act i action m (hAnswers (i, action, m) (by simp) _) hStep
      simpa using ih next (fun e hMem => hAnswers e (by simp [hMem])) hRest

/-- Two runs of the sample plan. -/
def sampleRacers (_ : Bool) : Racer where
  plan := samplePlan
  diff := .ok ["src/lib"]
  body := fun _ => .ok ⟨0, true⟩

/-- The first run takes its decision and its gated job waits; the second one comes from its start to
its end; then the first one goes on, and finds the key taken. -/
def sampleRace : List (Bool × Action × Moment) :=
  (scheduled [.advance, .advance, .detect, .work 0, .work 0, .listed (.ok ["src/lib"])]).map
      (true, ·) ++
    sampleSchedule.map (false, ·) ++
    (scheduled [.detect, .detect, .detect, .work 0, .work 0, .work 1, .work 1, .work 1, .work 1,
      .work 1, .returned 1 (.ok ⟨0, true⟩), .work 1, .advance, .advance, .advance]).map (true, ·)

/-- In the sample race both runs report, as either may alone; one of them has won, and the other one
has lost. -/
theorem sample_race_won : ∃ actions c, Races sampleRacers .memory ∅ actions c ∧
    ∃ (reports : Bool → RunReport) (winner : Bool) (decision : Decision),
      (∀ i, (c.1 i).report? = some (reports i)) ∧
      (∀ i, ∃ other, ReportsAlone sampleRacers .memory ∅ i other) ∧
      Won (ReportsAlone sampleRacers .memory ∅ winner) decision (reports winner) ∧
      ∀ i, i ≠ winner →
        Lost (ReportsAlone sampleRacers .memory ∅ i) defaultDecisionKey (reports i) := by
  have hCheck : (replayRace sampleRacers .memory sampleRace
      (fun i => Progress.start (sampleRacers i).plan, ∅)).any
      (fun c => (c.1 true).report?.isSome && (c.1 false).report?.isSome) = true := by decide
  obtain ⟨c, hPlays, hEnd⟩ := (Option.any_eq_true _ _).mp hCheck
  have hAnswers : ∀ e ∈ sampleRace, ∀ p,
      ((sampleRacers e.1).world : World (Table Json)).Answers (sampleRacers e.1).plan p e.2.1 := by
    simp [sampleRace, sampleSchedule, scheduled, World.Answers, Racer.world, World.fixed,
      sampleRacers]
  have race := Races.start.of_replay hAnswers hPlays
  have hUncancelled : ∀ i, (i, .cancel) ∉ [] ++ sampleRace.map fun e => (e.1, e.2.1) := by
    simp [sampleRace, sampleSchedule, scheduled]
  obtain ⟨hTrue, hFalse⟩ := Bool.and_eq_true_iff.mp hEnd
  have hReports : ∀ i, ∃ report, (c.1 i).report? = some report := by
    rintro (_ | _)
    · exact Option.isSome_iff_exists.mp hFalse
    · exact Option.isSome_iff_exists.mp hTrue
  choose reports hReports using hReports
  obtain ⟨-, -, hExactlyOne⟩ :=
    one_run_wins (fun _ => rfl) (.memory (Table.get?_empty _)) race hUncancelled
  obtain ⟨winner, won, lost⟩ := hExactlyOne reports _ ⟨true⟩ hReports fun _ => rfl
  have hSlots : ∀ n, samplePlan.limit = some n → n ≤ Plan.maxSlots := by
    intro n hSome
    obtain rfl := Option.some.inj hSome
    decide
  have hAlone : ∀ i, ∃ other, ReportsAlone sampleRacers .memory ∅ i other := fun i =>
    exists_reportsAlone .memory ∅ (show samplePlan.limit ≠ some 0 by decide) hSlots
  exact ⟨_, c, race, reports, winner, _, hReports, hAlone, won, lost⟩

end ChangeGate.Run
