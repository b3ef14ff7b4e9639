/-!
How jobs end, the states they pass through, and the counts of a run.
-/

namespace ChangeGate

inductive Outcome where
  | succeeded
  | failed
  | skipped
  | upstreamFailure
  | cancelled
deriving DecidableEq, Repr

inductive JobState where
  | scheduled
  | waitingOnDependency
  | gated
  | running
  | ended (outcome : Outcome)
deriving DecidableEq, Repr

namespace Outcome

def all : List Outcome := [.succeeded, .failed, .skipped, .upstreamFailure, .cancelled]

def name : Outcome → String
  | .succeeded => "succeeded"
  | .failed => "failed"
  | .skipped => "skipped"
  | .upstreamFailure => "upstream_failure"
  | .cancelled => "cancelled"

def byName : List (String × Outcome) := all.map fun o => (o.name, o)

/-- Whether an outcome counts as a failure. A skipped or cancelled job does not. -/
def isFailure : Outcome → Bool
  | .failed => true
  | .upstreamFailure => true
  | _ => false

def state (o : Outcome) : JobState := .ended o

end Outcome

namespace JobState

def name : JobState → String
  | .scheduled => "scheduled"
  | .waitingOnDependency => "waiting_on_dependency"
  | .gated => "gated"
  | .running => "running"
  | .ended o => o.name

def all : List JobState :=
  scheduled :: waitingOnDependency :: gated :: running :: Outcome.all.map ended

def byName : List (String × JobState) := all.map fun s => (s.name, s)

/-- Whether a job in this state goes no further. -/
def isTerminal : JobState → Bool
  | .ended _ => true
  | _ => false

end JobState

structure Summary where
  succeeded : Nat := 0
  failed : Nat := 0
  skipped : Nat := 0
  upstreamFailure : Nat := 0
  cancelled : Nat := 0
deriving DecidableEq, Repr

namespace Summary

def record (s : Summary) : Outcome → Summary
  | .succeeded => { s with succeeded := s.succeeded + 1 }
  | .failed => { s with failed := s.failed + 1 }
  | .skipped => { s with skipped := s.skipped + 1 }
  | .upstreamFailure => { s with upstreamFailure := s.upstreamFailure + 1 }
  | .cancelled => { s with cancelled := s.cancelled + 1 }

def ofOutcomes (outcomes : List Outcome) : Summary := outcomes.foldl record {}

def total (s : Summary) : Nat :=
  s.succeeded + s.failed + s.skipped + s.upstreamFailure + s.cancelled

@[simp] theorem total_record (s : Summary) (o : Outcome) : (s.record o).total = s.total + 1 := by
  cases o <;> simp only [record, total] <;> omega

end Summary

end ChangeGate
