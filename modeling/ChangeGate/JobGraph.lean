import ChangeGate.Digraph
import ChangeGate.Expansion

/-!
The graph of a run: one node that detects changes, one node for each job, and an edge from the
detector to every job that is gated on its decision.
-/

namespace ChangeGate

inductive GatePolicy where
  | respectAlwaysRun
  | gateAll
  | disabled
deriving DecidableEq, Repr

/-- Whether a job waits for the decision. -/
def GatePolicy.gates (policy : GatePolicy) (job : Job) : Bool :=
  match policy with
  | .respectAlwaysRun => !job.alwaysRun
  | .gateAll => true
  | .disabled => false

/-- The jobs of a run and which of them are gated. -/
structure JobGraph where
  jobs : List Job
  policy : GatePolicy
  jobs_ne_nil : jobs ≠ []
  nodup_ids : (jobs.map (·.id)).Nodup

namespace JobGraph

inductive Node where
  | detector
  | job (job : Job)
deriving DecidableEq, Repr

def Node.name : Node → String
  | .detector => "check-for-changes"
  | .job j => j.name

def Node.job? : Node → Option Job
  | .detector => none
  | .job j => some j

inductive Fault where
  | noJobs
  | repeatedId (id : JobId)
  | cyclic
deriving DecidableEq, Repr

def Fault.toError : Fault → Error
  | .noJobs => .graph "no job instances to wire"
  | .repeatedId id => .graph ("job id " ++ id.text ++ " appears twice")
  | .cyclic => .graph "cycle detected in job dependencies"

/-- The nodes of a graph of jobs, wired. -/
structure Wiring where
  graph : Digraph Node
  /-- The place of the detector. -/
  detector : Nat
  /-- The places of the jobs, in the order in which they were added. -/
  places : List Nat
  /-- The place of the job of each identifier. -/
  byId : List (JobId × Nat)
  detector_lt : detector < graph.size

namespace Wiring

/-- The detector alone. -/
def start : Wiring where
  graph := Digraph.empty.addNode .detector
  detector := 0
  places := []
  byId := []
  detector_lt := by simp

/-- A job added, with an edge from the detector if the policy gates it. -/
def add (policy : GatePolicy) (w : Wiring) (job : Job) : Wiring :=
  let grown := w.graph.addNode (.job job)
  have hDetector : w.detector < grown.size := by
    have h := w.detector_lt
    simp only [grown, Digraph.size_addNode]
    omega
  have hJob : w.graph.size < grown.size := by simp [grown]
  { graph :=
      if policy.gates job then grown.addEdge w.detector w.graph.size hDetector hJob else grown
    detector := w.detector
    places := w.places ++ [w.graph.size]
    byId := (job.id, w.graph.size) :: w.byId
    detector_lt := by split <;> exact hDetector }

def place? (w : Wiring) (id : JobId) : Option Nat := w.byId.lookup id

/-- The jobs added one after another, unless one has the identifier of an earlier one. -/
def addAll (policy : GatePolicy) : Wiring → List Job → Except Fault Wiring
  | w, [] => .ok w
  | w, job :: rest =>
    if (w.place? job.id).isSome then .error (.repeatedId job.id)
    else (w.add policy job).addAll policy rest

variable (w : Wiring)

/-- The job at a place, if there is one. -/
def jobAt? (place : Nat) : Option Job := (w.graph.node? place).bind Node.job?

/-- The jobs in the order in which they were added. -/
def jobs : List Job := w.places.filterMap w.jobAt?

/-- Whether an edge leads from the detector to the job of an identifier. -/
def dependsOnDetector (id : JobId) : Bool := (w.place? id).any (w.graph.hasEdge w.detector)

/-- The jobs to which the edges from the detector lead, the edge added last first. -/
def dependents : List Job := (w.graph.successors w.detector).filterMap w.jobAt?

def independent : List Job := w.jobs.filter fun job => !w.dependsOnDetector job.id

/-- All nodes in the order that `sort` gives. -/
def order (sort : Digraph Node → Option (List Nat)) : Except Fault (List Node) :=
  match sort w.graph with
  | some places => .ok (places.filterMap w.graph.node?)
  | none => .error .cyclic

theorem nodup_of_addAll {policy : GatePolicy} {w w' : Wiring} {jobs : List Job}
    (h : w.addAll policy jobs = .ok w') :
    (jobs.map (·.id)).Nodup ∧ ∀ job ∈ jobs, w.place? job.id = none := by
  induction jobs generalizing w with
  | nil => simp
  | cons job rest ih =>
    simp only [addAll] at h
    split at h
    · cases h
    · next hNew =>
      obtain ⟨hNodup, hRest⟩ := ih h
      have hOther : ∀ later ∈ rest, later.id ≠ job.id ∧ w.place? later.id = none := by
        intro later hLater
        have hNone := hRest later hLater
        simp only [place?, add, List.lookup_cons] at hNone
        split at hNone
        · cases hNone
        · next hNe => exact ⟨by simpa using hNe, hNone⟩
      refine ⟨?_, fun later hLater => ?_⟩
      · simp only [List.map_cons, List.nodup_cons, List.mem_map, not_exists, not_and]
        exact ⟨fun later hLater => (hOther later hLater).1, hNodup⟩
      · rcases List.mem_cons.1 hLater with rfl | hLater
        · simpa using hNew
        · exact (hOther later hLater).2

end Wiring

/-- The graph of the jobs of an expansion. -/
def build (expansion : Expansion) (policy : GatePolicy)
    (sort : Digraph Node → Option (List Nat) := Digraph.order?) : Except Fault JobGraph :=
  if hne : expansion.jobs = [] then .error .noJobs
  else match h : Wiring.start.addAll policy expansion.jobs with
    | .error fault => .error fault
    | .ok wiring =>
      (wiring.order sort).map fun _ =>
        { jobs := expansion.jobs, policy, jobs_ne_nil := hne,
          nodup_ids := (Wiring.nodup_of_addAll h).1 }

variable (g : JobGraph)

/-- The graph wired: the jobs added one after another. -/
def wiring : Wiring := g.jobs.foldl (Wiring.add g.policy) .start

/-- The jobs that the policy gates. -/
def gatedJobs : List Job := g.jobs.filter g.policy.gates

def independent : List Job := g.wiring.independent

/-- The jobs to which the edges from the detector lead, the edge added last first. -/
def dependents : List Job := g.wiring.dependents

/-- Whether the job of an identifier waits for the detector. -/
def dependsOnDetector (id : JobId) : Bool := g.wiring.dependsOnDetector id

/-- All nodes, each after those it depends on, unless they depend on one another in a circle. -/
def order (sort : Digraph Node → Option (List Nat) := Digraph.order?) : Except Fault (List Node) :=
  g.wiring.order sort

/-- All nodes, each after those it depends on: what depends on nothing and was added last comes
first. -/
def topologicalOrder : List Node := g.order.toOption.getD []

end JobGraph

end ChangeGate
