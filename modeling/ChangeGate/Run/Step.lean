import ChangeGate.Run.Progress
import ChangeGate.Store.Basic

/-!
The steps of a run. An action names who goes on, and carries what the surroundings answer: the
changed paths, the result of a body. Between any two steps of one worker the others, the detector
and somebody who cancels may go on. Wherever a worker waits, it looks for a cancellation before
anything else, and the cancellation may come right after it has looked.
-/

namespace ChangeGate.Run

inductive Action where
  | advance
  | cancel
  | listed (paths : Except Error (List String))
  /-- The detector is given up. A write to the store that was in progress may still take place. -/
  | abandon (written : Bool)
  | detect
  | work (i : Nat)
  | returned (i : Nat) (result : Except Error TaskResult)

structure Turn where
  stage : Stage
  /-- The number of free slots afterwards, if there is a limit. -/
  free : Option Nat
  event : Option Event.Body := none

/-- What a step of the detector comes to. -/
structure Finding (σ : Type) where
  detection : Detection
  state : σ
  event : Option Event.Body := none

/-- What a waiting worker does once it sees a signal. -/
def Signal.next : Signal → Option Stage
  | .pending => none
  | .ready => some .atGate
  | .failed => some (.finishing .detectionFailed false)
  | .cancelled => some (.finishing .cancelled false)

namespace Progress

variable (plan : Plan)

def jobReport (w : Worker) (ending : Ending) (completedAt : Timestamp) : JobReport where
  id := w.job.id
  index := w.job.index
  name := w.job.name
  parameters := w.job.parameters
  alwaysRun := w.job.alwaysRun
  gated := w.gated
  outcome := ending.outcome
  exitCode := ending.exitCode
  message := ending.message
  startedAt := ending.startedAt
  completedAt := completedAt
  duration := ending.duration

/-- The report of the run: its decision, or why there is none, and how each job ended. -/
def runReport (m : Moment) (decision : Option Decision) (error : Option String) (p : Progress) :
    RunReport :=
  let (startedAt, since) := p.startedAt.getD (m.instant, m.elapsed)
  { id := plan.run, workflow := plan.workflow.name, revisions := plan.revisions, decision
    detectorError := error, jobs := p.reports, startedAt, completedAt := m.instant
    duration := m.elapsed - since }

def advance (m : Moment) (p : Progress) : Option Progress :=
  match p.phase with
  | .created =>
    some <| tell plan m (some (.runStarted plan.workflow.name plan.revisions m.instant))
      { p with phase := .begun, startedAt := some (m.instant, m.elapsed) }
  | .begun =>
    let jobs := plan.graph.jobs.length
    let gated := plan.graph.dependents.length
    let phase := if p.free.any (Plan.maxSlots < ·) then .aborted else .active
    some <| tell plan m (some (.matrixExpanded jobs gated (jobs - gated))) { p with phase }
  | .active =>
    match p.detection with
    | .ended _ decision error =>
      if p.workers.all (·.stage.report?.isSome) then
        some { p with phase := .joined (runReport plan m decision error p) }
      else none
    | _ => none
  | .joined report =>
    let event := if p.cancelled then some (.runCancelled report.completedAt) else none
    some <| tell plan m event { p with phase := .closing report }
  | .closing report =>
    some <| tell plan m
      (some (.runCompleted report.workflow report.summary report.duration report.completedAt))
      { p with phase := .completed report }
  | .completed _ => none
  | .aborted => none

/-- A step of the detector other than listing the changed paths. -/
def detect {σ : Type} (store : Store σ) (m : Moment) (p : Progress) (s : σ) :
    Option (Finding σ) :=
  match p.detection with
  | .idle =>
    if p.cancelled then
      some { detection := .ended .cancelled none (some "cancelled"), state := s }
    else some { detection := .listing, state := s }
  | .listing => none
  | .judged (.ok decision) =>
    let (result, state) := store.putFlag s plan.detector.key decision.changesDetected
    some { detection := .recorded (result.map fun _ => decision), state }
  | .judged (.error e) => some { detection := .recorded (.error e), state := s }
  | .recorded (.ok decision) =>
    some { detection := .announced (.ok decision), state := s
           event := some (.decisionRecorded plan.detector.key decision m.instant) }
  | .recorded (.error e) =>
    some { detection := .announced (.error e), state := s
           event := some (.detectorFailed e.message) }
  | .announced (.ok decision) =>
    some { detection := .ended .ready (some decision) none, state := s }
  | .announced (.error e) =>
    some { detection := .ended .failed none (some e.message), state := s }
  | .ended .. => none

def listed {σ : Type} (paths : Except Error (List String)) (p : Progress) (s : σ) :
    Option (Finding σ) :=
  match p.detection with
  | .listing => some { detection := .judged (plan.detector.evaluate paths), state := s }
  | _ => none

/-- The detector is given up because the run is cancelled. -/
def abandon {σ : Type} (store : Store σ) (written : Bool) (p : Progress) (s : σ) :
    Option (Finding σ) :=
  let detection : Detection := .ended .cancelled none (some "cancelled")
  if p.cancelled then
    match p.detection with
    | .listing => if written then none else some { detection, state := s }
    | .judged (.ok decision) =>
      let after := (store.putFlag s plan.detector.key decision.changesDetected).2
      some { detection, state := if written then after else s }
    | _ => none
  else none

/-- What a worker does once the gate has answered. -/
def pastGate : Except Error Verdict → Stage
  | .ok .proceed => .queued
  | .ok .skip => .finishing .skipped false
  | .error e => .finishing (.unavailable e) false

/-- A worker goes to a stage, and the free slots stay as they are. -/
def goTo (stage : Stage) (p : Progress) : Turn := { stage, free := p.free }

/-- A step of a worker, if it can take one. `verdict` is what the gate says if it is asked now. -/
def turn? (m : Moment) (verdict : Except Error Verdict) (p : Progress) (w : Worker) :
    Option Turn :=
  match w.stage with
  | .scheduled =>
    some <| p.goTo <|
      if p.cancelled then .finishing .cancelled false
      else if w.gated then .waiting
      else .queued
  | .waiting => some <| p.goTo <| if p.cancelled then .finishing .cancelled false else .listening
  | .listening =>
    match p.detection.signal.next with
    | some stage => some (p.goTo stage)
    | none => if p.cancelled then some (p.goTo (.finishing .cancelled false)) else none
  | .atGate => some (p.goTo (pastGate verdict))
  | .queued =>
    some <| p.goTo <|
      if p.free = none then .admitted
      else if p.cancelled then .finishing .cancelled false
      else .claiming
  | .claiming =>
    match p.free with
    | some (free + 1) => some { stage := .admitted, free := some free }
    | _ => if p.cancelled then some (p.goTo (.finishing .cancelled false)) else none
  | .admitted => some <| p.goTo <| if p.cancelled then .finishing .cancelled true else .starting
  | .starting =>
    some { p.goTo (.running m.instant m.elapsed) with
           event := some (.jobStarted w.job.id w.job.name m.instant) }
  | .running .. => none
  | .finishing ending holdsSlot =>
    some { stage := .done (jobReport w ending m.instant)
           free := if holdsSlot then p.free.map (· + 1) else p.free
           event := some (.jobCompleted w.job.id w.job.name ending.outcome ending.exitCode
             ending.duration) }
  | .done _ => none

def returned (m : Moment) (result : Except Error TaskResult) (p : Progress) (w : Worker) :
    Option Turn :=
  match w.stage with
  | .running startedAt since =>
    some (p.goTo (.finishing (Ending.ofResult startedAt (m.elapsed - since) result) true))
  | _ => none

/-- The run after a step of the worker at an index. -/
def take (m : Moment) (i : Nat) (t : Turn) (p : Progress) : Progress :=
  tell plan m t.event ({ p with free := t.free }.setStage i t.stage)

/-- The run and its store after a step of the detector. -/
def find {σ : Type} (m : Moment) (p : Progress) (f : Finding σ) : Progress × σ :=
  (tell plan m f.event { p with detection := f.detection }, f.state)

section Frame

variable {σ : Type} (m : Moment) (i : Nat) (t : Turn) (f : Finding σ) (p : Progress)

@[simp] theorem phase_take : (take plan m i t p).phase = p.phase := rfl

@[simp] theorem detection_take : (take plan m i t p).detection = p.detection := rfl

@[simp] theorem cancelled_take : (take plan m i t p).cancelled = p.cancelled := rfl

@[simp] theorem free_take : (take plan m i t p).free = t.free := rfl

@[simp] theorem workers_take :
    (take plan m i t p).workers = p.workers.modify i fun w => { w with stage := t.stage } := rfl

@[simp] theorem published_take :
    (take plan m i t p).published = p.published ++ t.event.toList.map (Event.mk plan.run) := rfl

@[simp] theorem said_take : (take plan m i t p).said = p.said ++ t.event.toList :=
  said_tell plan m t.event _

@[simp] theorem phase_find : (find plan m p f).1.phase = p.phase := rfl

@[simp] theorem detection_find : (find plan m p f).1.detection = f.detection := rfl

@[simp] theorem cancelled_find : (find plan m p f).1.cancelled = p.cancelled := rfl

@[simp] theorem free_find : (find plan m p f).1.free = p.free := rfl

@[simp] theorem workers_find : (find plan m p f).1.workers = p.workers := rfl

@[simp] theorem state_find : (find plan m p f).2 = f.state := rfl

@[simp] theorem published_find :
    (find plan m p f).1.published = p.published ++ f.event.toList.map (Event.mk plan.run) := rfl

@[simp] theorem said_find : (find plan m p f).1.said = p.said ++ f.event.toList :=
  said_tell plan m f.event _

end Frame

/-- Whether the workers and the detector go on. -/
def isActive (p : Progress) : Bool :=
  match p.phase with
  | .active => true
  | _ => false

/-- The step of an action at a moment, if it can be taken. -/
def act? {σ : Type} (store : Store σ) (m : Moment) (p : Progress) (s : σ) :
    Action → Option (Progress × σ)
  | .advance => (advance plan m p).map (·, s)
  | .cancel => if p.cancelled then none else some ({ p with cancelled := true }, s)
  | .listed paths => if p.isActive then (listed plan paths p s).map (find plan m p) else none
  | .abandon written =>
    if p.isActive then (abandon plan store written p s).map (find plan m p) else none
  | .detect => if p.isActive then (detect plan store m p s).map (find plan m p) else none
  | .work i =>
    if p.isActive then
      (p.workers[i]?.bind (turn? m (store.check s plan.detector.key) p)).map
        fun t => (take plan m i t p, s)
    else none
  | .returned i result =>
    if p.isActive then (p.workers[i]?.bind (returned m result p)).map fun t => (take plan m i t p, s)
    else none

end Progress

/-- What surrounds a run: what it is answered, and what happens to its store besides. -/
structure World (σ : Type) where
  listing : Except Error (List String) → Prop
  body : TaskContext → Except Error TaskResult → Prop
  /-- What others may do to the store, as far as the run has come. -/
  others : Progress → σ → σ → Prop

/-- Whether what an action carries is an answer that may be given. -/
def World.Answers {σ : Type} (world : World σ) (plan : Plan) (p : Progress) : Action → Prop
  | .listed paths => world.listing paths
  | .returned i result => ∀ w, p.workers[i]? = some w → world.body (plan.context w.job) result
  | _ => True

/-- The runs from a state: the actions that are taken, one after another, and the state that they
lead to. Others may change the store at any time. -/
inductive Runs {σ : Type} (plan : Plan) (store : Store σ) (world : World σ)
    (start : Progress × σ) : List Action → Progress × σ → Prop where
  | start : Runs plan store world start [] start
  /-- One action more, at a moment at which it can be taken. -/
  | act {actions : List Action} {p : Progress} {s : σ} {c : Progress × σ}
      (prior : Runs plan store world start actions (p, s)) (action : Action) (m : Moment)
      (answers : world.Answers plan p action) (taken : p.act? plan store m s action = some c) :
      Runs plan store world start (actions ++ [action]) c
  | others {actions : List Action} {p : Progress} {s s' : σ}
      (prior : Runs plan store world start actions (p, s)) (change : world.others p s s') :
      Runs plan store world start actions (p, s')

end ChangeGate.Run
