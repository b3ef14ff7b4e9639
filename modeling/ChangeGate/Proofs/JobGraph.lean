import Mathlib.Data.List.Nodup
import Mathlib.Logic.Relation
import ChangeGate.JobGraph
import ChangeGate.Proofs.Digraph
import ChangeGate.Proofs.Table

/-! What the graph of a run is once its jobs have been added one after another. Its list of places,
its edges and its table of identifiers tell of the same jobs, each at the place after those before
it, and every view of the graph is read off from that. -/

namespace ChangeGate.JobGraph

variable {policy : GatePolicy} {jobs : List Job} {job : Job} {id : JobId} {place : Nat}

/-- The jobs, each with its place: the first one comes after the detector. -/
def placed (jobs : List Job) : List (Job × Nat) := jobs.zipIdx 1

theorem placed_concat (jobs : List Job) (job : Job) :
    placed (jobs ++ [job]) = placed jobs ++ [(job, jobs.length + 1)] := by
  simp [placed, List.zipIdx_append, Nat.add_comm]

theorem mem_placed : (job, place) ∈ placed jobs ↔ 1 ≤ place ∧ jobs[place - 1]? = some job :=
  List.mk_mem_zipIdx_iff_le_and_getElem?_sub

theorem map_fst_placed (jobs : List Job) : (placed jobs).map Prod.fst = jobs :=
  List.zipIdx_map_fst 1 jobs

theorem exists_mem_placed : (∃ place, (job, place) ∈ placed jobs) ↔ job ∈ jobs := by
  conv_rhs => rw [← map_fst_placed jobs]
  simp

/-- A graph of jobs that were added to the detector. -/
structure Wired (policy : GatePolicy) (jobs : List Job) (w : Wiring) : Prop where
  nodes : w.graph.nodes = .detector :: jobs.map .job
  detector : w.detector = 0
  places : w.places = (placed jobs).map (·.2)
  edges : w.graph.edges = (((placed jobs).filter (policy.gates ·.1)).map (0, ·.2)).reverse
  byId : w.byId = ((placed jobs).map fun e => (e.1.id, e.2)).reverse

namespace Wired

theorem start : Wired policy [] .start := ⟨rfl, rfl, rfl, rfl, rfl⟩

variable {w : Wiring}

theorem size_eq (wired : Wired policy jobs w) : w.graph.size = jobs.length + 1 := by
  simp [Digraph.size, wired.nodes]

/-- One job more. -/
theorem add (wired : Wired policy jobs w) (job : Job) :
    Wired policy (jobs ++ [job]) (w.add policy job) where
  nodes := by
    have hNodes : (w.add policy job).graph.nodes = w.graph.nodes ++ [.job job] := by
      unfold Wiring.add
      dsimp only
      split <;> rfl
    rw [hNodes, wired.nodes]
    simp
  detector := wired.detector
  places := by simp [Wiring.add, wired.places, wired.size_eq, placed_concat]
  edges := by
    have hEdges : (w.add policy job).graph.edges =
        if policy.gates job then (0, jobs.length + 1) :: w.graph.edges else w.graph.edges := by
      rw [← wired.size_eq, ← wired.detector]
      unfold Wiring.add
      dsimp only
      split <;> rfl
    rw [hEdges, wired.edges, placed_concat, List.filter_append]
    split <;> simp [*]
  byId := by simp [Wiring.add, wired.byId, wired.size_eq, placed_concat]

/-- All jobs, one after another. -/
theorem foldl_add {done : List Job} (wired : Wired policy done w) (jobs : List Job) :
    Wired policy (done ++ jobs) (jobs.foldl (Wiring.add policy) w) := by
  induction jobs generalizing done w with
  | nil => simpa using wired
  | cons job rest ih => simpa using ih (wired.add job)

variable (wired : Wired policy jobs w)
include wired

/-! Places. -/

theorem node?_zero : w.graph.node? 0 = some .detector := by
  simp [Digraph.node?, wired.nodes]

theorem node?_eq_job : w.graph.node? place = some (.job job) ↔ (job, place) ∈ placed jobs := by
  rw [mem_placed]
  cases place with
  | zero => simp [Digraph.node?, wired.nodes]
  | succ i => simp [Digraph.node?, wired.nodes]

theorem jobAt?_eq_some : w.jobAt? place = some job ↔ (job, place) ∈ placed jobs := by
  rw [← wired.node?_eq_job, Wiring.jobAt?, Option.bind_eq_some_iff]
  constructor
  · rintro ⟨node, hNode, hJob⟩
    cases node with
    | detector => cases hJob
    | job other =>
        obtain rfl := Option.some.inj hJob
        exact hNode
  · exact fun hNode => ⟨_, hNode, rfl⟩

/-- What is listed by place is the jobs at those places. -/
theorem filterMap_jobAt? {entries : List (Job × Nat)} (hEntries : ∀ e ∈ entries, e ∈ placed jobs) :
    (entries.map (·.2)).filterMap w.jobAt? = entries.map (·.1) := by
  rw [List.filterMap_map, ← List.filterMap_eq_map]
  exact List.filterMap_congr fun e hMem => wired.jobAt?_eq_some.mpr (hEntries e hMem)

theorem leads_iff {source target : Nat} :
    w.graph.Leads source target ↔
      source = 0 ∧ ∃ job, (job, target) ∈ placed jobs ∧ policy.gates job = true := by
  simp only [Digraph.Leads, wired.edges, List.mem_reverse, List.mem_map, List.mem_filter,
    Prod.mk.injEq, Prod.exists]
  constructor
  · rintro ⟨job, target', ⟨hMem, hGates⟩, rfl, rfl⟩
    exact ⟨rfl, job, hMem, hGates⟩
  · rintro ⟨rfl, job, hMem, hGates⟩
    exact ⟨job, target, ⟨hMem, hGates⟩, rfl, rfl⟩

theorem place?_eq_some (hNodup : (jobs.map (·.id)).Nodup) :
    w.place? id = some place ↔ ∃ job, (job, place) ∈ placed jobs ∧ job.id = id := by
  have hIds : (w.byId.map Prod.fst).Nodup := by
    rw [wired.byId, List.map_reverse, List.nodup_reverse, List.map_map]
    rw [← map_fst_placed jobs, List.map_map] at hNodup
    exact hNodup
  rw [Wiring.place?, ← Table.mem_iff_lookup hIds, wired.byId]
  simp

/-! Views. -/

theorem jobs_eq : w.jobs = jobs := by
  rw [Wiring.jobs, wired.places, wired.filterMap_jobAt? fun _ h => h, map_fst_placed]

/-- The edges lead to the gated jobs, the last one first. -/
theorem dependents_eq : w.dependents = (jobs.filter policy.gates).reverse := by
  have hTargets : w.graph.successors w.detector =
      (((placed jobs).filter (policy.gates ·.1)).reverse).map (·.2) := by
    rw [Digraph.successors, wired.edges, wired.detector, List.filter_reverse, List.filter_map]
    simp [Function.comp_def]
  have hPlaced : ∀ e ∈ ((placed jobs).filter (policy.gates ·.1)).reverse, e ∈ placed jobs :=
    fun e hMem => List.mem_of_mem_filter (List.mem_reverse.mp hMem)
  rw [Wiring.dependents, hTargets, wired.filterMap_jobAt? hPlaced, List.map_reverse]
  conv_rhs => rw [← map_fst_placed jobs, List.filter_map]
  rfl

theorem dependsOnDetector_iff (hNodup : (jobs.map (·.id)).Nodup) :
    w.dependsOnDetector id = true ↔
      ∃ job ∈ jobs, job.id = id ∧ policy.gates job = true := by
  have hEdge : ∀ place, w.graph.hasEdge w.detector place = true ↔
      ∃ job, (job, place) ∈ placed jobs ∧ policy.gates job = true := by
    intro place
    rw [Digraph.hasEdge, List.contains_iff_mem, wired.detector]
    exact wired.leads_iff.trans (and_iff_right rfl)
  rw [Wiring.dependsOnDetector, Option.any_eq_true]
  constructor
  · rintro ⟨place, hPlace, hGated⟩
    obtain ⟨job, hMem, hId⟩ := (wired.place?_eq_some hNodup).mp hPlace
    obtain ⟨other, hOther, hGates⟩ := (hEdge place).mp hGated
    -- there is one job at a place
    have hSame : some job = some other := by
      rw [← wired.jobAt?_eq_some.mpr hMem, ← wired.jobAt?_eq_some.mpr hOther]
    obtain rfl := Option.some.inj hSame
    exact ⟨job, exists_mem_placed.mp ⟨place, hMem⟩, hId, hGates⟩
  · rintro ⟨job, hMem, hId, hGates⟩
    obtain ⟨place, hPlace⟩ := exists_mem_placed.mpr hMem
    exact ⟨place, (wired.place?_eq_some hNodup).mpr ⟨job, hPlace, hId⟩,
      (hEdge place).mpr ⟨job, hPlace, hGates⟩⟩

theorem dependsOnDetector_of_mem (hNodup : (jobs.map (·.id)).Nodup) (hMem : job ∈ jobs) :
    w.dependsOnDetector job.id = policy.gates job := by
  rw [Bool.eq_iff_iff, wired.dependsOnDetector_iff hNodup]
  constructor
  · rintro ⟨other, hOther, hId, hGates⟩
    exact List.inj_on_of_nodup_map hNodup hOther hMem hId ▸ hGates
  · exact fun hGates => ⟨job, hMem, rfl, hGates⟩

theorem independent_eq (hNodup : (jobs.map (·.id)).Nodup) :
    w.independent = jobs.filter fun job => !policy.gates job := by
  rw [Wiring.independent, wired.jobs_eq]
  refine List.filter_congr fun job hMem => ?_
  rw [wired.dependsOnDetector_of_mem hNodup hMem]

/-- No way along the edges leads back: they all leave the detector, and none leads to it. -/
theorem acyclic : w.graph.Acyclic := by
  intro place way
  obtain ⟨_, first, -⟩ := Relation.TransGen.head'_iff.mp way
  obtain ⟨_, -, last⟩ := Relation.TransGen.tail'_iff.mp way
  obtain ⟨rfl, -⟩ := wired.leads_iff.mp first
  obtain ⟨-, job, hMem, -⟩ := wired.leads_iff.mp last
  exact absurd (mem_placed.mp hMem).1 (by decide)

/-- A function that sorts graphs lists the nodes of this one, each once and the detector before the
gated jobs. -/
theorem exists_order {sort : Digraph Node → Option (List Nat)} (sorts : Digraph.Sorts sort) :
    ∃ order, w.order sort = .ok order ∧ order.Perm (.detector :: jobs.map .job) ∧
      ∀ job ∈ jobs, policy.gates job = true → [Node.detector, .job job].Sublist order := by
  obtain ⟨places, hSort, orders⟩ := sorts w.graph wired.acyclic
  refine ⟨places.filterMap w.graph.node?, by rw [Wiring.order, hSort], ?_, ?_⟩
  · rw [← wired.nodes, ← w.graph.filterMap_node?_range]
    exact orders.perm.filterMap _
  · intro job hMem hGates
    obtain ⟨place, hPlace⟩ := exists_mem_placed.mpr hMem
    have hDetector := w.graph.mem_range_of_node? wired.node?_zero
    have hJob := w.graph.mem_range_of_node? (wired.node?_eq_job.mpr hPlace)
    have hBefore := orders.forward 0 hDetector place hJob
      (wired.leads_iff.mpr ⟨rfl, job, hPlace, hGates⟩)
    simpa [wired.node?_zero, wired.node?_eq_job.mpr hPlace] using hBefore.filterMap w.graph.node?

end Wired

/-! Building. -/

theorem Wiring.addAll_of_nodup {w : Wiring} (hNodup : (jobs.map (·.id)).Nodup)
    (hNew : ∀ job ∈ jobs, w.place? job.id = none) :
    w.addAll policy jobs = .ok (jobs.foldl (Wiring.add policy) w) := by
  induction jobs generalizing w with
  | nil => rfl
  | cons job rest ih =>
      obtain ⟨hFirst, hRest⟩ := List.nodup_cons.mp hNodup
      obtain ⟨hJob, hLater⟩ := List.forall_mem_cons.mp hNew
      have hMore : ∀ later ∈ rest, (w.add policy job).place? later.id = none := by
        intro later hMem
        have hOther : (later.id == job.id) = false := by
          rw [beq_eq_false_iff_ne]
          exact fun hEq => hFirst (List.mem_map.mpr ⟨later, hMem, hEq⟩)
        have hNone := hLater later hMem
        rw [Wiring.place?] at hNone ⊢
        rw [Wiring.add, List.lookup_cons, hOther]
        exact hNone
      rw [Wiring.addAll, hJob]
      exact ih hRest hMore

variable {expansion : Expansion} {sort : Digraph Node → Option (List Nat)} {graph : JobGraph}

/-- The graph of an expansion has its jobs. -/
theorem jobs_of_build (h : build expansion policy sort = .ok graph) :
    graph.jobs = expansion.jobs ∧ graph.policy = policy := by
  unfold build at h
  split at h
  · cases h
  · split at h
    · cases h
    · next wiring hWiring =>
        cases hOrder : wiring.order sort with
        | error fault =>
            rw [hOrder] at h
            cases h
        | ok order =>
            rw [hOrder] at h
            cases h
            exact ⟨rfl, rfl⟩

/-- Jobs can be wired if there are any and their identifiers differ. -/
theorem exists_build (sorts : Digraph.Sorts sort) (policy : GatePolicy)
    (hJobs : expansion.jobs ≠ []) (hNodup : (expansion.jobs.map (·.id)).Nodup) :
    ∃ graph, build expansion policy sort = .ok graph := by
  have hAll : Wiring.start.addAll policy expansion.jobs = .ok _ :=
    Wiring.addAll_of_nodup hNodup fun _ _ => rfl
  have wired : Wired policy expansion.jobs _ := Wired.start.foldl_add expansion.jobs
  obtain ⟨order, hOrder, -⟩ := wired.exists_order sorts
  unfold build
  rw [dif_neg hJobs]
  split
  · next hError =>
      rw [hAll] at hError
      cases hError
  · next hOk =>
      rw [hAll] at hOk
      cases hOk
      rw [hOrder]
      exact ⟨_, rfl⟩

/-- Jobs cannot be wired for one of two reasons. -/
theorem exists_error_of_build_iff (sorts : Digraph.Sorts sort) :
    (∃ fault, build expansion policy sort = .error fault) ↔
      expansion.jobs = [] ∨ ¬ (expansion.jobs.map (·.id)).Nodup := by
  constructor
  · rintro ⟨fault, hError⟩
    by_contra hSound
    obtain ⟨hJobs, hNodup⟩ := not_or.mp hSound
    obtain ⟨graph, hBuild⟩ := exists_build sorts policy hJobs (not_not.mp hNodup)
    rw [hBuild] at hError
    cases hError
  · intro hUnsound
    cases hBuild : build expansion policy sort with
    | error fault => exact ⟨fault, rfl⟩
    | ok graph =>
        obtain ⟨hJobs, -⟩ := jobs_of_build hBuild
        rw [← hJobs] at hUnsound
        rcases hUnsound with hNil | hRepeated
        · exact absurd hNil graph.jobs_ne_nil
        · exact absurd graph.nodup_ids hRepeated

/-! Graphs of jobs. -/

variable (g : JobGraph)

theorem wired : Wired g.policy g.jobs g.wiring := Wired.start.foldl_add g.jobs

/-- A job of a graph waits for the detector exactly if the policy says so. -/
theorem dependsOnDetector_of_mem {g : JobGraph} (hMem : job ∈ g.jobs) :
    g.dependsOnDetector job.id = g.policy.gates job :=
  g.wired.dependsOnDetector_of_mem g.nodup_ids hMem

/-- The jobs of a graph have an order. -/
theorem order_eq : g.order = .ok g.topologicalOrder := by
  obtain ⟨order, hOrder, -⟩ := g.wired.exists_order Digraph.sorts_order?
  have hOk : g.order = .ok order := hOrder
  rw [topologicalOrder, hOk]
  rfl

/-- What the views of a graph tell of jobs that a policy gates: which there are, which of them wait
for the detector, and in what order they come. -/
structure Tells (jobs : List Job) (policy : GatePolicy) (sort : Digraph Node → Option (List Nat))
    (g : JobGraph) : Prop where
  listed : g.jobs = jobs ∧ g.wiring.jobs = jobs
  dependents : g.dependents.Perm (jobs.filter policy.gates)
  independent : g.independent.Perm (jobs.filter fun job => !policy.gates job)
  /-- No job is listed twice, in one of the two lists or in both. -/
  nodup : (g.dependents ++ g.independent).Nodup
  count : g.dependents.length + g.independent.length = g.wiring.places.length
  waits : ∀ id, g.dependsOnDetector id = true ↔
    ∃ job ∈ jobs, job.id = id ∧ policy.gates job = true
  order : ∃ order, g.order sort = .ok order ∧ order.Perm (.detector :: jobs.map .job) ∧
    ∀ job ∈ jobs, policy.gates job = true → [Node.detector, .job job].Sublist order

/-- Every job of a graph is either a dependent or independent. -/
theorem dependents_append_independent_perm : (g.dependents ++ g.independent).Perm g.jobs := by
  rw [dependents, independent, g.wired.dependents_eq, g.wired.independent_eq g.nodup_ids]
  exact ((List.reverse_perm _).append_right _).trans (List.filter_append_perm _ _)

theorem length_dependents_add : g.dependents.length + g.independent.length = g.jobs.length := by
  rw [← List.length_append, g.dependents_append_independent_perm.length_eq]

/-- The views of a graph agree. -/
theorem tells (sorts : Digraph.Sorts sort) : Tells g.jobs g.policy sort g where
  listed := ⟨rfl, g.wired.jobs_eq⟩
  dependents := by
    rw [dependents, g.wired.dependents_eq]
    exact List.reverse_perm _
  independent := by
    rw [independent, g.wired.independent_eq g.nodup_ids]
  nodup := g.dependents_append_independent_perm.nodup_iff.mpr (.of_map _ g.nodup_ids)
  count := by
    rw [g.length_dependents_add, g.wired.places, List.length_map, placed, List.length_zipIdx]
  waits _ := g.wired.dependsOnDetector_iff g.nodup_ids
  order := g.wired.exists_order sorts

/-- The edges of a graph: one from the detector to every gated job. -/
inductive Edge (g : JobGraph) : Node → Node → Prop where
  | gates {job : Job} (hGated : job ∈ g.gatedJobs) : Edge g .detector (.job job)

/-- They are the edges that were added. -/
theorem edge_iff {source target : Node} :
    g.Edge source target ↔ ∃ a b, g.wiring.graph.Leads a b ∧
      g.wiring.graph.node? a = some source ∧ g.wiring.graph.node? b = some target := by
  constructor
  · rintro ⟨hGated⟩
    obtain ⟨hMem, hGates⟩ := List.mem_filter.mp hGated
    obtain ⟨place, hPlace⟩ := exists_mem_placed.mpr hMem
    exact ⟨0, place, g.wired.leads_iff.mpr ⟨rfl, _, hPlace, hGates⟩, g.wired.node?_zero,
      g.wired.node?_eq_job.mpr hPlace⟩
  · rintro ⟨a, b, hLeads, hSource, hTarget⟩
    obtain ⟨rfl, job, hPlace, hGates⟩ := g.wired.leads_iff.mp hLeads
    obtain rfl := Option.some.inj (g.wired.node?_zero.symm.trans hSource)
    obtain rfl := Option.some.inj ((g.wired.node?_eq_job.mpr hPlace).symm.trans hTarget)
    exact .gates (List.mem_filter.mpr ⟨exists_mem_placed.mp ⟨b, hPlace⟩, hGates⟩)

/-- No way along the edges leads back to where it starts. -/
theorem acyclic (node : Node) : ¬ Relation.TransGen g.Edge node node := by
  intro h
  obtain ⟨_, first, -⟩ := Relation.TransGen.head'_iff.mp h
  obtain ⟨_, -, last⟩ := Relation.TransGen.tail'_iff.mp h
  cases first
  cases last

end ChangeGate.JobGraph
