import ChangeGate.Event
import ChangeGate.Report
import ChangeGate.Run.Plan

/-!
How far a run has come. The detector and a worker for each job go on side by side, each through
phases of its own; what they share is the store, the slots for bodies, the request to cancel, and
the events published so far.
-/

namespace ChangeGate.Run

/-- What the surroundings show at one step: the clock and the bus. -/
structure Moment where
  instant : Timestamp
  /-- A clock that is good for durations, in milliseconds. -/
  elapsed : Nat
  delivers : Bool
deriving Repr

structure Ending where
  outcome : Outcome
  exitCode : Option Int := none
  message : Option String := none
  startedAt : Option Timestamp := none
  duration : Option Nat := none
deriving Repr

namespace Ending

/-- The run was cancelled before the body started. -/
def cancelled : Ending := { outcome := .cancelled, message := some "run cancelled" }

def detectionFailed : Ending :=
  { outcome := .upstreamFailure, message := some "change detection failed" }

def unavailable (error : Error) : Ending :=
  { outcome := .upstreamFailure, message := some ("decision unavailable: " ++ error.message) }

def skipped : Ending := { outcome := .skipped, message := some "no relevant changes" }

/-- What the result of a body says: the outcome, the exit code and a message. -/
def verdict : Except Error TaskResult → Outcome × Option Int × Option String
  | .ok result =>
    if result.success then (.succeeded, some result.exitCode, none)
    else (.failed, some result.exitCode,
      some ("task exited with code " ++ toString result.exitCode))
  | .error e => (.failed, none, some e.message)

/-- The ending of a body that has returned. -/
def ofResult (startedAt : Timestamp) (duration : Nat) (result : Except Error TaskResult) : Ending :=
  let (outcome, exitCode, message) := verdict result
  { outcome, exitCode, message, startedAt := some startedAt, duration := some duration }

end Ending

inductive Stage where
  /-- Nothing has been done. -/
  | scheduled
  /-- It is to wait for the detector, and has not looked whether the run is cancelled. -/
  | waiting
  /-- It waits for the detector, and the run was not cancelled when it looked. -/
  | listening
  /-- The detector is ready; the gate has not been asked. -/
  | atGate
  /-- It is to wait for a slot, and has not looked whether the run is cancelled. -/
  | queued
  /-- It waits for a slot, and the run was not cancelled when it looked. -/
  | claiming
  /-- It has a slot, and has not looked again whether the run is cancelled. -/
  | admitted
  /-- Its body is about to start. -/
  | starting
  /-- Its body runs since an instant. -/
  | running (startedAt : Timestamp) (since : Nat)
  /-- How it ends is known, and not yet published; `holdsSlot` tells whether it has a slot. -/
  | finishing (ending : Ending) (holdsSlot : Bool)
  /-- It has ended. -/
  | done (report : JobReport)
deriving Repr

/-- Whether a worker at a stage has a slot. -/
def Stage.holdsSlot : Stage → Bool
  | .admitted => true
  | .starting => true
  | .running .. => true
  | .finishing _ holdsSlot => holdsSlot
  | _ => false

/-- The report of a worker that has ended. -/
def Stage.report? : Stage → Option JobReport
  | .done report => some report
  | _ => none

structure Worker where
  job : Job
  gated : Bool
  stage : Stage := .scheduled
deriving Repr

/-- What waiting workers see of the detector. -/
inductive Signal where
  | pending
  | ready
  | failed
  | cancelled
deriving DecidableEq, Repr

inductive Detection where
  /-- Nothing has been done. -/
  | idle
  /-- The changed paths are being listed. -/
  | listing
  /-- The decision is taken, or it cannot be. -/
  | judged (result : Except Error Decision)
  /-- The decision is in the store, or it cannot be. -/
  | recorded (result : Except Error Decision)
  /-- What came of it is published. -/
  | announced (result : Except Error Decision)
  /-- The workers have been told. -/
  | ended (signal : Signal) (decision : Option Decision) (error : Option String)

def Detection.signal : Detection → Signal
  | .ended signal _ _ => signal
  | _ => .pending

inductive Phase where
  /-- Nothing has been done. -/
  | created
  /-- The start is published. -/
  | begun
  /-- The workers and the detector go on. -/
  | active
  /-- All have ended; the report is made. -/
  | joined (report : RunReport)
  /-- A cancellation, if there was one, is published. -/
  | closing (report : RunReport)
  /-- The end is published. -/
  | completed (report : RunReport)
  /-- The slots could not be made. -/
  | aborted

/-- How far a run has come, apart from the store. -/
structure Progress where
  phase : Phase := .created
  detection : Detection := .idle
  workers : List Worker
  free : Option Nat
  cancelled : Bool := false
  startedAt : Option (Timestamp × Nat) := none
  published : List Event := []
  delivered : List Event := []

namespace Progress

def start (plan : Plan) : Progress where
  workers := plan.graph.jobs.map fun job => { job, gated := plan.isGated job }
  free := plan.limit

/-- The number of workers that have a slot. -/
def slotsHeld (p : Progress) : Nat := p.workers.countP (·.stage.holdsSlot)

def bodiesRunning (p : Progress) : Nat :=
  p.workers.countP fun w => match w.stage with
    | .running .. => true
    | _ => false

/-- The reports of the workers that have ended, in order. -/
def reports (p : Progress) : List JobReport := p.workers.filterMap (·.stage.report?)

def report? (p : Progress) : Option RunReport :=
  match p.phase with
  | .completed report => some report
  | _ => none

/-- Gives an event to the bus, if there is one. -/
def tell (plan : Plan) (m : Moment) (event : Option Event.Body) (p : Progress) : Progress :=
  let events := event.toList.map (Event.mk plan.run)
  { p with
    published := p.published ++ events
    delivered := if m.delivers then p.delivered ++ events else p.delivered }

/-- Puts the worker at an index to a stage. -/
def setStage (i : Nat) (stage : Stage) (p : Progress) : Progress :=
  { p with workers := p.workers.modify i fun w => { w with stage } }

def said (p : Progress) : List Event.Body := p.published.map (·.body)

@[simp] theorem said_start (plan : Plan) : (start plan).said = [] := rfl

section Tell

variable (plan : Plan) (m : Moment) (event : Option Event.Body) (p : Progress)

@[simp] theorem phase_tell : (tell plan m event p).phase = p.phase := rfl

@[simp] theorem detection_tell : (tell plan m event p).detection = p.detection := rfl

@[simp] theorem workers_tell : (tell plan m event p).workers = p.workers := rfl

@[simp] theorem free_tell : (tell plan m event p).free = p.free := rfl

@[simp] theorem cancelled_tell : (tell plan m event p).cancelled = p.cancelled := rfl

@[simp] theorem published_tell :
    (tell plan m event p).published = p.published ++ event.toList.map (Event.mk plan.run) := rfl

@[simp] theorem said_tell : (tell plan m event p).said = p.said ++ event.toList := by
  simp [said, Function.comp_def]

end Tell

end Progress

end ChangeGate.Run
