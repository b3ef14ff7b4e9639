import ChangeGate.Proofs.Run.Slots
import ChangeGate.Run.OneThread

/-! A run on one thread is a run: the thread takes only steps that somebody may take, and its bodies
return what they may return. So whatever holds of all runs holds of it; for one, the most bodies
that it sees running together are no more than there are slots. -/

namespace ChangeGate.Run

open Progress

variable {σ : Type} {plan : Plan} {store : Store σ} {around : Surroundings σ}
  {start : Progress × σ} {t : OneThread σ}

/-- Surroundings as a world: a body returns what it may in some state, and what it does to the state
is done by somebody other than the run. -/
def Surroundings.world (around : Surroundings σ) : World σ where
  listing paths := paths = around.paths
  body context result := ∃ s, result = (around.body context s).1.result
  others _ s s' := ∃ context, s' = (around.body context s).2

namespace OneThread

/-- The thread has come where a run leads, and each body that it has begun belongs to the worker at
its index. -/
structure Follows (plan : Plan) (store : Store σ) (around : Surroundings σ)
    (start : Progress × σ) (t : OneThread σ) : Prop where
  run : ∃ actions, Runs plan store around.world start actions (t.progress, t.state)
  bodies : ∀ i body stage, (i, body, stage) ∈ t.bodies → ∀ w, t.progress.workers[i]? = some w →
    around.world.body (plan.context w.job) body.result

/-- A move that fits where the thread stands: what an action carries may be answered, and a body is
begun for the worker that is to run it. -/
inductive Fits (plan : Plan) (around : Surroundings σ) (t : OneThread σ) : Move → Prop where
  | act {action : Action} (answers : around.world.Answers plan t.progress action) :
      Fits plan around t (.act action)
  | enter {i : Nat} {w : Worker} (hWorker : t.progress.workers[i]? = some w) :
      Fits plan around t (.enter i w.job)
  | turn (i : Nat) (stage : BodyStage) : Fits plan around t (.turn i stage)
  | resume : Fits plan around t .resume

theorem mem_of_lookup {β : Type} {i : Nat} {b : β} {entries : List (Nat × β)}
    (h : entries.lookup i = some b) : (i, b) ∈ entries := by
  obtain ⟨before, after, rfl, -⟩ := List.lookup_eq_some_iff.mp h
  simp

section

variable (follows : Follows plan store around start t) {i : Nat} {body : Body} {move : Move}

include follows

theorem Follows.fits_bodyMove {stage stage' : BodyStage}
    (hBody : t.bodies.lookup i = some (body, stage'))
    (h : bodyMove? t.progress.cancelled i body stage = some move) : Fits plan around t move := by
  have hReturned : Fits plan around t (.act (.returned i body.result)) :=
    .act (follows.bodies i body stage' (mem_of_lookup hBody))
  have hCancel : Fits plan around t (.act .cancel) := .act trivial
  cases stage with
  | entered =>
      cases h
      split
      · exact hCancel
      · exact .turn i .underWay
  | underWay =>
      simp only [bodyMove?] at h
      split at h
      · cases h
        exact .turn i .waiting
      · split at h <;> cases h
        · exact hCancel
        · exact hReturned
  | waiting => cases h
  | resumed =>
      simp only [bodyMove?] at h
      split at h <;> cases h
      · exact hCancel
      · exact hReturned

omit follows in
theorem fits_detectorMove (h : detectorMove? around t.progress = some move) :
    Fits plan around t move := by
  unfold detectorMove? at h
  split at h
  · cases h
  · split at h
    · cases h
      exact .act trivial
    · split at h <;> cases h
      exact .act rfl
  · cases h
    exact .act trivial

theorem Follows.fits_workerMove {w : Worker} (hWorker : t.progress.workers[i]? = some w)
    (h : workerMove? t i w = some move) : Fits plan around t move := by
  have hWork : Fits plan around t (.act (.work i)) := .act trivial
  cases hStage : w.stage with
  | done report => simp [workerMove?, hStage] at h
  | running startedAt since =>
      cases hBody : t.bodies.lookup i with
      | none =>
          simp only [workerMove?, hStage, hBody] at h
          cases h
          exact .enter hWorker
      | some entry =>
          simp only [workerMove?, hStage, hBody] at h
          exact follows.fits_bodyMove hBody h
  | waiting =>
      simp only [workerMove?, hStage] at h
      split at h <;> cases h
      exact hWork
  | queued =>
      simp only [workerMove?, hStage] at h
      split at h <;> cases h
      exact hWork
  | _ =>
      simp only [workerMove?, hStage] at h
      cases h
      exact hWork

theorem Follows.fits_resumedMove (h : t.resumedMove? = some move) : Fits plan around t move := by
  obtain ⟨⟨w, i⟩, -, hMove⟩ := List.exists_of_findSome?_eq_some h
  dsimp only at hMove
  split at hMove
  · next hStage hBody => exact follows.fits_bodyMove hBody hMove
  · cases hMove

theorem Follows.fits_firstWorkerMove (h : t.firstWorkerMove? = some move) :
    Fits plan around t move := by
  obtain ⟨⟨w, i⟩, hMem, hMove⟩ := List.exists_of_findSome?_eq_some h
  exact follows.fits_workerMove (List.mk_mem_zipIdx_iff_getElem?.mp hMem) hMove

/-- The thread makes only moves that fit. -/
theorem Follows.fits (h : t.move? around = some move) : Fits plan around t move := by
  unfold move? at h
  split at h
  · cases h
  · cases h
  · rcases Option.or_eq_some_iff.mp h with h | ⟨-, h⟩
    · exact fits_detectorMove h
    rcases Option.or_eq_some_iff.mp h with h | ⟨-, h⟩
    · exact follows.fits_resumedMove h
    rcases Option.or_eq_some_iff.mp h with h | ⟨-, h⟩
    · exact follows.fits_firstWorkerMove h
    split at h
    · cases h
      exact .resume
    · split at h <;> cases h
      · exact .act rfl
      · exact .act trivial
  · cases h
    exact .act trivial

/-- The bodies may come to other stages, as long as each stays that of its worker. -/
theorem Follows.map {f : Nat × Body × BodyStage → Nat × Body × BodyStage}
    (hIndex : ∀ e, (f e).1 = e.1) (hBody : ∀ e, (f e).2.1 = e.2.1) :
    Follows plan store around start { t with bodies := t.bodies.map f } := by
  refine ⟨follows.run, fun i body stage hMem w hWorker => ?_⟩
  obtain ⟨⟨j, body', before⟩, hOld, hEq⟩ := List.mem_map.mp hMem
  have hAt := hIndex (j, body', before)
  have hSame := hBody (j, body', before)
  rw [hEq] at hAt hSame
  obtain rfl : i = j := hAt
  obtain rfl : body = body' := hSame
  exact follows.bodies i body before hOld w hWorker

/-- A move that fits leads to where a run leads. -/
theorem Follows.make (fits : Fits plan around t move) :
    Follows plan store around start (t.make plan store around move) := by
  obtain ⟨actions, run⟩ := follows.run
  cases fits with
  | @act action answers =>
      simp only [OneThread.make]
      split
      · exact follows
      · next progress state taken =>
        refine ⟨⟨_, run.act action _ answers taken⟩, fun i body stage hMem w hWorker => ?_⟩
        have hJobs := congrArg (·[i]?) (Change.of_act? taken).jobs_eq
        simp only [List.getElem?_map, hWorker, Option.map_some] at hJobs
        obtain ⟨v, hBefore, hEq⟩ := Option.map_eq_some_iff.mp hJobs.symm
        rw [← (Prod.mk.inj hEq).1]
        exact follows.bodies i body stage hMem v hBefore
  | @enter j v hStarted =>
      refine ⟨⟨actions, run.others ⟨plan.context v.job, rfl⟩⟩,
        fun i body stage hMem w hWorker => ?_⟩
      rcases List.mem_cons.mp hMem with hNew | hOld
      · cases hNew
        cases hStarted.symm.trans hWorker
        exact ⟨t.state, rfl⟩
      · exact follows.bodies i body stage hOld w hWorker
  | turn j stage =>
      exact follows.map (fun e => by split <;> rfl) (fun e => by split <;> rfl)
  | resume =>
      exact follows.map (fun e => by split <;> rfl) (fun e => by split <;> rfl)

end

theorem Follows.drive {fuel : Nat} (follows : Follows plan store around start t) :
    Follows plan store around start (drive plan store around fuel t) := by
  induction fuel generalizing t with
  | zero => exact follows
  | succ fuel ih =>
      unfold OneThread.drive
      split
      · exact follows
      · next move hMove => exact ih (follows.make (follows.fits hMove))

theorem follows_start (plan : Plan) (store : Store σ) (around : Surroundings σ) (cancelled : Bool)
    (s : σ) : Follows plan store around ({ Progress.start plan with cancelled }, s)
      { progress := { Progress.start plan with cancelled }, state := s } :=
  ⟨⟨[], .start⟩, fun _ _ _ hMem => absurd hMem List.not_mem_nil⟩

theorem peak_make_le (plan : Plan) (store : Store σ) (around : Surroundings σ) (t : OneThread σ)
    (move : Move) : (t.make plan store around move).peak ≤
      max t.peak (t.make plan store around move).progress.bodiesRunning := by
  cases move with
  | act action =>
      simp only [OneThread.make]
      split
      · exact Nat.le_max_left _ _
      · exact Nat.le_refl _
  | _ => exact Nat.le_max_left _ _

/-- The most bodies that the thread sees running together are no more than run together anywhere in
a run. -/
theorem Follows.peak_drive_le {limit fuel : Nat}
    (hRuns : ∀ actions c, Runs plan store around.world start actions c → c.1.bodiesRunning ≤ limit)
    (follows : Follows plan store around start t) (hPeak : t.peak ≤ limit) :
    (OneThread.drive plan store around fuel t).peak ≤ limit := by
  induction fuel generalizing t with
  | zero => exact hPeak
  | succ fuel ih =>
      unfold OneThread.drive
      split
      · exact hPeak
      · next move hMove =>
          have next := follows.make (follows.fits hMove)
          obtain ⟨actions, run⟩ := next.run
          have hNext := peak_make_le plan store around t move
          have hSeen := Nat.max_le.mpr ⟨hPeak, hRuns actions _ run⟩
          exact ih next (Nat.le_trans hNext hSeen)

/-- No more bodies run together on one thread than the plan has slots. -/
theorem peak_run_le {plan : Plan} {limit : Nat} (hLimit : plan.limit = some limit)
    (store : Store σ) (around : Surroundings σ) (cancelled : Bool) (s : σ) :
    (run plan store around cancelled s).peak ≤ limit := by
  have hSlots := (slots_start plan).trans hLimit
  have follows := follows_start plan store around cancelled s
  exact follows.peak_drive_le (fun _ _ hRun => hRun.bodiesRunning_le hSlots) (Nat.zero_le limit)

/-- Wherever a run on one thread ends, a run leads there, whose first action is a request to cancel
if it was cancelled before it began. -/
theorem runs_run (plan : Plan) (store : Store σ) (around : Surroundings σ) (cancelled : Bool)
    (s : σ) :
    ∃ actions, (cancelled = true → actions.head? = some .cancel) ∧
      Runs plan store around.world (Progress.start plan, s) actions
        ((run plan store around cancelled s).progress,
          (run plan store around cancelled s).state) := by
  have follows : Follows plan store around ({ Progress.start plan with cancelled }, s)
      (run plan store around cancelled s) :=
    (follows_start plan store around cancelled s).drive
  obtain ⟨actions, hRun⟩ := follows.run
  cases cancelled with
  | false => exact ⟨actions, nofun, hRun⟩
  | true =>
      have first : Runs plan store around.world (Progress.start plan, s) [.cancel]
          ({ Progress.start plan with cancelled := true }, s) :=
        Runs.start.act .cancel (around.moment 0) trivial rfl
      exact ⟨.cancel :: actions, fun _ => rfl, first.trans hRun⟩

end OneThread

end ChangeGate.Run
