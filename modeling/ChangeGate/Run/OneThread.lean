import ChangeGate.Run.Step

/-!
Runs on one thread. Nobody waits unless told to: the detector goes first, then the workers in
order, each as far as it can. A body may be told to wait; all waiting bodies go on together once
nobody else can. The listing of changed paths may be told to wait until everybody who can do
without it has gone as far as they can. Every move that changes the run is one of its steps.
-/

namespace ChangeGate.Run

structure Body where
  result : Except Error TaskResult
  cancelsFirst : Bool := false
  waits : Bool := false
  cancelsLast : Bool := false

/-- What surrounds a run that acts on a state `σ`: its store and its bodies both do. -/
structure Surroundings (σ : Type) where
  paths : Except Error (List String)
  listingWaits : Bool := false
  /-- How a body behaves, and what it does to the state. -/
  body : TaskContext → σ → Body × σ
  moment : Nat → Moment

inductive BodyStage where
  | entered
  | underWay
  | waiting
  | resumed
deriving DecidableEq, Repr

structure OneThread (σ : Type) where
  progress : Progress
  state : σ
  /-- The bodies that have started, by the index of their worker. -/
  bodies : List (Nat × Body × BodyStage) := []
  steps : Nat := 0
  peak : Nat := 0

namespace OneThread

variable {σ : Type}

inductive Move where
  | act (action : Action)
  | enter (i : Nat) (job : Job)
  | turn (i : Nat) (stage : BodyStage)
  | resume

def bodyMove? (cancelled : Bool) (i : Nat) (body : Body) : BodyStage → Option Move
  | .entered =>
    some (if body.cancelsFirst && !cancelled then .act .cancel else .turn i .underWay)
  | .underWay =>
    if body.waits then some (.turn i .waiting)
    else if body.cancelsLast && !cancelled then some (.act .cancel)
    else some (.act (.returned i body.result))
  | .waiting => none
  | .resumed =>
    if body.cancelsLast && !cancelled then some (.act .cancel)
    else some (.act (.returned i body.result))

def detectorMove? (around : Surroundings σ) (p : Progress) : Option Move :=
  match p.detection with
  | .ended .. => none
  | .listing =>
    if p.cancelled then some (.act (.abandon false))
    else if around.listingWaits then none
    else some (.act (.listed around.paths))
  | _ => some (.act .detect)

def workerMove? (t : OneThread σ) (i : Nat) (w : Worker) : Option Move :=
  let p := t.progress
  match w.stage with
  | .done _ => none
  | .running .. =>
    match t.bodies.lookup i with
    | none => some (.enter i w.job)
    | some (body, stage) => bodyMove? p.cancelled i body stage
  | .waiting =>
    if p.cancelled || p.detection.signal != .pending then some (.act (.work i)) else none
  | .queued =>
    if p.cancelled || p.free != some 0 then some (.act (.work i)) else none
  | _ => some (.act (.work i))

/-- The next move of the first body that goes on after it has waited. -/
def resumedMove? (t : OneThread σ) : Option Move :=
  t.progress.workers.zipIdx.findSome? fun (w, i) =>
    match w.stage, t.bodies.lookup i with
    | .running .., some (body, .resumed) => bodyMove? t.progress.cancelled i body .resumed
    | _, _ => none

/-- The next move of the first worker that can go on. -/
def firstWorkerMove? (t : OneThread σ) : Option Move :=
  t.progress.workers.zipIdx.findSome? fun (w, i) => workerMove? t i w

def someWaits (t : OneThread σ) : Bool := t.bodies.any (·.2.2 == .waiting)

def move? (around : Surroundings σ) (t : OneThread σ) : Option Move :=
  match t.progress.phase with
  | .completed _ => none
  | .aborted => none
  | .active =>
    (detectorMove? around t.progress).or <|
    (resumedMove? t).or <|
    (firstWorkerMove? t).or <|
    if t.someWaits then some .resume
    else match t.progress.detection with
      | .listing => some (.act (.listed around.paths))
      | _ => some (.act .advance)
  | _ => some (.act .advance)

def make (plan : Plan) (store : Store σ) (around : Surroundings σ) (t : OneThread σ) :
    Move → OneThread σ
  | .act action =>
    match t.progress.act? plan store (around.moment t.steps) t.state action with
    | none => t
    | some (progress, state) =>
      { t with
        progress, state, steps := t.steps + 1
        peak := max t.peak progress.bodiesRunning }
  | .enter i job =>
    let (body, state) := around.body (plan.context job) t.state
    { t with state, bodies := (i, body, .entered) :: t.bodies }
  | .turn i stage =>
    { t with bodies := t.bodies.map fun e => if e.1 = i then (e.1, e.2.1, stage) else e }
  | .resume =>
    { t with
      bodies := t.bodies.map fun e => if e.2.2 = .waiting then (e.1, e.2.1, .resumed) else e }

def drive (plan : Plan) (store : Store σ) (around : Surroundings σ) :
    Nat → OneThread σ → OneThread σ
  | 0, t => t
  | fuel + 1, t =>
    match t.move? around with
    | none => t
    | some move => drive plan store around fuel (t.make plan store around move)

/-- More moves than a run with a number of jobs takes: eighteen of each worker, and those of the
detector, of the run as a whole, and of resuming. -/
def enough (jobs : Nat) : Nat := 20 * jobs + 20

def run (plan : Plan) (store : Store σ) (around : Surroundings σ) (cancelled : Bool)
    (state : σ) : OneThread σ :=
  drive plan store around (enough plan.graph.jobs.length)
    { progress := { Progress.start plan with cancelled }, state }

end OneThread

end ChangeGate.Run
