import Mathlib.Logic.Relation
import ChangeGate.Proofs.Run.Transition

/-! The course of a run: runs compose, and a run passes every state that it comes to and goes on
from. What a run has settled stays settled: a detector that has ended, a request to cancel, the
jobs of the workers. -/

namespace ChangeGate.Run

open Progress

variable {σ : Type} {plan : Plan} {store : Store σ} {world : World σ}
  {start b c d : Progress × σ} {actions : List Action}

/-- Concatenate two runs. -/
theorem Runs.trans {first second : List Action} (left : Runs plan store world start first c)
    (right : Runs plan store world c second d) :
    Runs plan store world start (first ++ second) d := by
  induction right with
  | start => simpa using left
  | act prior action m answers taken ih =>
      rw [← List.append_assoc]
      exact .act ih action m answers taken
  | others prior change ih => exact .others ih change

/-- A relation that every step of a run keeps, and that nothing others do breaks, holds between any
two states that a run leads from and to. -/
theorem Runs.of_steps {R : Progress × σ → Progress × σ → Prop} (hRefl : ∀ c, R c c)
    (hTrans : ∀ {b c d}, R b c → R c d → R b d)
    (hStep : ∀ {p s m action c}, Change plan store m p s action c → R (p, s) c)
    (hOthers : ∀ p s t, R (p, s) (p, t))
    (run : Runs plan store world start actions c) : R start c := by
  induction run with
  | start => exact hRefl _
  | act prior action m answers taken ih => exact hTrans ih (hStep (.of_act? taken))
  | others prior change ih => exact hTrans ih (hOthers _ _ _)

/-- The states that a run passes: it comes to them and goes on from there. -/
def Passes (plan : Plan) (store : Store σ) (world : World σ) (start : Progress × σ)
    (actions : List Action) (c b : Progress × σ) : Prop :=
  ∃ before after, actions = before ++ after ∧ Runs plan store world start before b ∧
    Runs plan store world b after c

/-- A run passes the state that it ends in. -/
theorem Runs.passes (run : Runs plan store world start actions c) :
    Passes plan store world start actions c c :=
  ⟨actions, [], by simp, run, .start⟩

/-- A request to cancel is never taken back. -/
theorem Change.cancelled_mono {p : Progress} {s : σ} {m : Moment} {action : Action}
    (change : Change plan store m p s action c) (h : p.cancelled = true) :
    c.1.cancelled = true := by
  cases change with
  | advanced move => cases move <;> simpa using h
  | cancelled hCancelled => rfl
  | found hActive move => simpa using h
  | turned hActive hWorker move => simpa using h

theorem Runs.cancelled_mono (run : Runs plan store world start actions c) :
    start.1.cancelled = true → c.1.cancelled = true :=
  run.of_steps (R := fun b c => b.1.cancelled = true → c.1.cancelled = true)
    (fun _ h => h) (fun hl hr h => hr (hl h)) (fun change => change.cancelled_mono)
    (fun _ _ _ h => h)

/-- A detector that has ended has ended for good. -/
theorem Change.ended_mono {p : Progress} {s : σ} {m : Moment} {action : Action}
    (change : Change plan store m p s action c) {signal : Signal} {decision : Option Decision}
    {error : Option String} (h : p.detection = .ended signal decision error) :
    c.1.detection = .ended signal decision error := by
  cases change with
  | advanced move => cases move <;> simpa using h
  | cancelled hCancelled => exact h
  | found hActive move => cases move <;> simp_all
  | turned hActive hWorker move => simpa using h

theorem Runs.ended_mono (run : Runs plan store world start actions c) {signal : Signal}
    {decision : Option Decision} {error : Option String} :
    start.1.detection = .ended signal decision error →
      c.1.detection = .ended signal decision error :=
  run.of_steps
    (R := fun b c => b.1.detection = .ended signal decision error →
      c.1.detection = .ended signal decision error)
    (fun _ h => h) (fun hl hr h => hr (hl h)) (fun change => change.ended_mono) (fun _ _ _ h => h)

/-- A run goes on: it keeps what it has passed and done, and what it has settled. -/
structure Extends (plan : Plan) (store : Store σ) (world : World σ) (start : Progress × σ)
    (actions : List Action) (c : Progress × σ) (actions' : List Action) (c' : Progress × σ) :
    Prop where
  passes : ∀ b, Passes plan store world start actions c b →
    Passes plan store world start actions' c' b
  actions_subset : actions ⊆ actions'
  cancelled : c.1.cancelled = true → c'.1.cancelled = true
  ended : ∀ {signal decision error}, c.1.detection = .ended signal decision error →
    c'.1.detection = .ended signal decision error

/-- A run that goes on from where another ends extends it. -/
theorem Runs.extends {before : List Action} (run : Runs plan store world b actions c) :
    Extends plan store world start before b (before ++ actions) c where
  passes := by
    rintro d ⟨first, second, rfl, hFirst, hSecond⟩
    exact ⟨first, second ++ actions, List.append_assoc .., hFirst, hSecond.trans run⟩
  actions_subset := List.subset_append_left ..
  cancelled := run.cancelled_mono
  ended := run.ended_mono

/-- Workers that have seen a signal may count on it. -/
theorem Extends.signal {actions' : List Action} {c' : Progress × σ} {signal : Signal}
    (ext : Extends plan store world start actions c actions' c')
    (h : c.1.detection.signal = signal) (hSettled : signal ≠ .pending) :
    c'.1.detection.signal = signal := by
  cases hAt : c.1.detection with
  | ended signal' decision error => rw [ext.ended hAt, ← h, hAt]
  | _ => rw [hAt] at h; exact absurd h.symm hSettled

theorem Extends.act {p : Progress} {s : σ} {m : Moment} {action : Action}
    (answers : world.Answers plan p action) (taken : p.act? plan store m s action = some c) :
    Extends plan store world start actions (p, s) (actions ++ [action]) c :=
  (Runs.start.act action m answers taken).extends

theorem Extends.others {p : Progress} {s t : σ} (change : world.others p s t) :
    Extends plan store world start actions (p, s) actions (p, t) := by
  have ext : Extends plan store world start actions (p, s) (actions ++ []) (p, t) :=
    (Runs.start.others change).extends
  simpa using ext

/-- A run extends itself as it was in a state that it passed. -/
theorem Passes.extends (passed : Passes plan store world start actions c b) :
    ∃ before, Runs plan store world start before b ∧
      Extends plan store world start before b actions c := by
  obtain ⟨before, after, rfl, hBefore, hAfter⟩ := passed
  exact ⟨before, hBefore, hAfter.extends⟩

/-- A run is cancelled exactly if somebody has cancelled it. -/
theorem Runs.cancelled_iff (run : Runs plan store world start actions c)
    (hStart : start.1.cancelled = false) :
    c.1.cancelled = true ↔ Action.cancel ∈ actions := by
  induction run with
  | start => simp [hStart]
  | act prior action m answers taken ih =>
      rw [List.mem_append, List.mem_singleton, ← ih]
      cases Change.of_act? taken with
      | advanced move => cases move <;> simp
      | cancelled hCancelled => simp
      | found hActive move => cases move <;> simp
      | turned hActive hWorker move => cases move <;> simp
  | others prior change ih => exact ih

/-- After a step of the worker at an index, that worker stands where the step led it, and the
others where they stood. -/
theorem worker_of_take {p : Progress} {m : Moment} {i j : Nat} {w w' : Worker} {t : Turn}
    (hWorker : p.workers[i]? = some w) (h : (take plan m i t p).workers[j]? = some w') :
    (j = i ∧ w' = { w with stage := t.stage }) ∨ (j ≠ i ∧ p.workers[j]? = some w') := by
  rw [workers_take, List.getElem?_modify] at h
  by_cases hj : i = j
  · subst hj
    rw [hWorker] at h
    exact .inl ⟨rfl, by simpa using h.symm⟩
  · exact .inr ⟨Ne.symm hj, by simpa [hj] using h⟩

theorem mem_of_take {p : Progress} {m : Moment} {i : Nat} {w w' : Worker} {t : Turn}
    (hWorker : p.workers[i]? = some w) (hMem : w' ∈ (take plan m i t p).workers) :
    w' = { w with stage := t.stage } ∨ w' ∈ p.workers := by
  obtain ⟨j, hAt⟩ := List.mem_iff_getElem?.mp hMem
  rcases worker_of_take hWorker hAt with ⟨-, h⟩ | ⟨-, h⟩
  · exact .inl h
  · exact .inr (List.mem_of_getElem? h)

/-- A step of the worker at an index replaces that worker in its place. -/
theorem workers_of_take (plan : Plan) (m : Moment) (t : Turn) {p : Progress} {i : Nat} {w : Worker}
    (hWorker : p.workers[i]? = some w) :
    ∃ before after, p.workers = before ++ w :: after ∧
      (take plan m i t p).workers = before ++ { w with stage := t.stage } :: after := by
  obtain ⟨hLt, rfl⟩ := List.getElem?_eq_some_iff.mp hWorker
  refine ⟨p.workers.take i, p.workers.drop (i + 1), ?_, ?_⟩
  · rw [← List.drop_eq_getElem_cons hLt, List.take_append_drop]
  · rw [workers_take, List.modify_eq_take_cons_drop hLt]

/-- What a step of a worker keeps of it, as long as the run is cancelled if it was at the start, the
run keeps. -/
theorem Runs.worker_kept {P : Worker → Prop}
    (hMove : ∀ {p s m action i w t}, (start.1.cancelled = true → p.cancelled = true) →
      p.workers[i]? = some w → world.Answers plan p action →
      WorkerMove plan store m p s i w action t → P w → P { w with stage := t.stage })
    (run : Runs plan store world start actions c) {i : Nat} {w : Worker}
    (hWorker : start.1.workers[i]? = some w) (hStart : P w) :
    ∃ w', c.1.workers[i]? = some w' ∧ P w' := by
  induction run with
  | start => exact ⟨w, hWorker, hStart⟩
  | others prior change ih => exact ih
  | act prior action m answers taken ih =>
      obtain ⟨w', hWorker', hKept⟩ := ih
      cases Change.of_act? taken with
      | advanced move => cases move <;> exact ⟨w', hWorker', hKept⟩
      | cancelled hCancelled => exact ⟨w', hWorker', hKept⟩
      | found hActive move => exact ⟨w', hWorker', hKept⟩
      | @turned _ j v t hActive hMoved move =>
          rw [workers_take, List.getElem?_modify, hWorker']
          by_cases hj : j = i
          · subst hj
            obtain rfl : w' = v := Option.some.inj (hWorker'.symm.trans hMoved)
            exact ⟨_, by simp, hMove prior.cancelled_mono hMoved answers move hKept⟩
          · exact ⟨w', by simp [hj], hKept⟩

/-- The job of a worker, and whether it is gated, never change. -/
theorem Change.jobs_eq {p : Progress} {s : σ} {m : Moment} {action : Action}
    (change : Change plan store m p s action c) :
    c.1.workers.map (fun w => (w.job, w.gated)) = p.workers.map (fun w => (w.job, w.gated)) := by
  cases change with
  | advanced move => cases move <;> simp
  | cancelled hCancelled => rfl
  | found hActive move => simp
  | @turned _ i w t hActive hWorker move =>
      apply List.ext_getElem?
      intro j
      simp only [workers_take, List.getElem?_map, List.getElem?_modify]
      by_cases hj : i = j
      · subst hj
        simp [hWorker]
      · simp [hj]

theorem Runs.jobs_eq (run : Runs plan store world start actions c) :
    c.1.workers.map (fun w => (w.job, w.gated)) =
      start.1.workers.map (fun w => (w.job, w.gated)) :=
  run.of_steps
    (R := fun b c => c.1.workers.map (fun w => (w.job, w.gated)) =
      b.1.workers.map (fun w => (w.job, w.gated)))
    (fun _ => rfl) (fun hl hr => hr.trans hl) (fun change => change.jobs_eq) (fun _ _ _ => rfl)

end ChangeGate.Run
