import ChangeGate.Proofs.Expansion.Relisting
import ChangeGate.Proofs.Form.Instance

/-! Asking by name for the jobs of a product. Whatever tuple the axes of a matrix have, there is a
mapping that asks for it, with the flag or without, and what it asks for becomes a job unless it is
left out. The one exception is an axis that has the name set apart: no mapping can give it a
value. -/

namespace ChangeGate

open Yaml

/-- What a job asked for is written as can be given by nodes. -/
theorem Instance.exists_nodes (spec : Instance) :
    ∃ nodes, List.Forall₂ Atom.EntryCarried nodes spec.atoms := by
  have hNamed : List.Forall₂ Atom.EntryCarried
      (spec.parameters.entries.map fun e => (.scalar {} e.1 .quoted, .scalar {} e.2 .quoted))
      (spec.parameters.entries.map fun e => (e.1, .text e.2)) := by
    rw [List.forall₂_map_left_iff, List.forall₂_map_right_iff]
    exact List.forall₂_same.mpr fun e _ => ⟨.text _ _ _, .text _ _ _⟩
  have hFlag : ∃ nodes, List.Forall₂ Atom.EntryCarried nodes
      (if spec.alwaysRun then [(flagName, .bool true)] else []) := by
    split
    · have hTrue : Atom.Carried (.bool true) (.scalar {} "true" .plain) := .bool {} rfl
      exact ⟨[(.scalar {} flagName .plain, _)], .cons ⟨.text _ _ _, hTrue⟩ .nil⟩
    · exact ⟨[], .nil⟩
  obtain ⟨nodes, hFlag⟩ := hFlag
  exact ⟨_, List.rel_append hNamed hFlag⟩

/-- The job with the flag that its values are given. -/
def Job.marked (flags : Parameters → Bool) (job : Job) : Job :=
  { job with alwaysRun := flags job.parameters }

namespace Matrix

variable {m : Matrix} {p : Parameters} {spec : Instance} {specs : List Instance}
  {workflow : String} {newId : Nat → JobId} {expansion : Expansion}

/-- A tuple that is asked for is in order as it is. -/
theorem IsTuple.normalize (tuple : m.IsTuple spec.parameters) : m.normalize spec = .ok spec :=
  normalize_eq_ok_iff.mpr ⟨tuple, .refl _, rfl⟩

/-- There is a mapping that asks for a tuple, unless an axis has the name set apart. -/
theorem IsTuple.exists_nodes (tuple : m.IsTuple p) (hAxes : Instance.flagName ∉ m.axes.keys)
    (flag : Bool) : ∃ nodes, ∀ (doc : Document) (path : Path) (properties : Properties)
      (left : Nat),
      Instance.reader doc path (.mapping properties nodes) left = .ok (⟨p, flag⟩, left) := by
  obtain ⟨nodes, hNodes⟩ := Instance.exists_nodes ⟨p, flag⟩
  rw [← tuple.keys_eq] at hAxes
  exact ⟨nodes, fun _ _ properties _ => Instance.reader_of_atoms hAxes hNodes properties⟩

/-- Nothing that can be asked for gives a value to an axis that has the name set apart. -/
theorem normalize_of_flag_axis (hAxis : Instance.flagName ∈ m.axes.keys) {doc : Document}
    {node : Node} (h : Instance.reader.Takes doc node spec) :
    ∃ fault, m.normalize spec = .error fault := by
  cases hNormal : m.normalize spec with
  | error fault => exact ⟨fault, rfl⟩
  | ok spec' =>
      have orders := normalize_eq_ok_iff.mp hNormal
      rw [← orders.tuple.keys_eq, orders.alike.mem_keys_iff] at hAxis
      exact absurd hAxis (Instance.flagName_notMem_keys h)

/-- Different tuples that are asked for and not left out become the jobs, in order. -/
theorem expand_of_listed (hAxes : m.checkAxes = .ok ()) (hKnown : m.KnownExcludes)
    (hSome : specs ≠ [])
    (hTuples : ∀ spec ∈ specs, m.IsTuple spec.parameters ∧ ¬ m.Drops spec.parameters)
    (hNodup : (specs.map (·.parameters)).Nodup) :
    { m with instances := specs }.expand workflow newId =
      .ok ⟨workflow, numbered workflow newId specs, m.maxParallel⟩ := by
  have hKeys : ∀ spec ∈ specs, spec.parameters.keys = m.axes.keys :=
    fun spec hMem => (hTuples spec hMem).1.keys_eq
  have hSame : List.Forall₂ Reorders specs specs := List.forall₂_same.mpr fun _ _ => ⟨.refl _, rfl⟩
  refine expand_of_distinct (kept_of_tuples hAxes hKnown hSome hTuples hSame) ?_ hSome
  rw [firstDuplicate?_nil_eq_none_iff hKeys]
  rw [List.Nodup, List.pairwise_map] at hNodup
  refine hNodup.imp_of_mem fun hMem hMem' hDiffer hAlike => hDiffer ?_
  exact Table.eq_of_alike ((hKeys _ hMem).trans (hKeys _ hMem').symm) hAlike

theorem numbered_marked (flags : Parameters → Bool) (specs : List Instance) :
    numbered workflow newId (specs.map fun spec => ⟨spec.parameters, flags spec.parameters⟩) =
      (numbered workflow newId specs).map (Job.marked flags) := by
  simp [numbered, Job.marked, List.zipIdx_map, Function.comp_def]

/-- The jobs of an expansion can be asked for, each with either flag. -/
theorem expand_of_marked (h : m.expand workflow newId = .ok expansion)
    (flags : Parameters → Bool) :
    { m with instances := expansion.jobs.map fun job : Job => (job.marked flags).spec }.expand
        workflow newId =
      .ok { expansion with jobs := expansion.jobs.map (Job.marked flags) } := by
  obtain ⟨specs, hKept, hNone, hSome, rfl⟩ := exists_kept_of_expand h
  obtain ⟨hAxes, hKnown, -⟩ := kept_eq_ok_iff.mp hKept
  have hTuples := of_kept hKept
  have hSpecs : (numbered workflow newId specs).map (fun job => (job.marked flags).spec) =
      specs.map fun spec => ⟨spec.parameters, flags spec.parameters⟩ := by
    rw [← specs_numbered workflow newId specs, List.map_map, specs_numbered]
    rfl
  have hNodup : (specs.map (·.parameters)).Nodup := by
    refine .of_map Table.values ?_
    rw [List.map_map]
    exact (firstDuplicate?_eq_none_iff.mp hNone).1
  rw [hSpecs, ← numbered_marked]
  refine expand_of_listed hAxes hKnown (by simpa using hSome) ?_ (by simpa [Function.comp_def])
  simpa using fun spec hMem => hTuples spec hMem

/-- A job of an expansion can be asked for alone, with either flag. -/
theorem expand_of_one (h : m.expand workflow newId = .ok expansion) {job : Job}
    (hMem : job ∈ expansion.jobs) (flag : Bool) (newId' : Nat → JobId) :
    { m with instances := [⟨job.parameters, flag⟩] }.expand workflow newId' =
      .ok ⟨workflow, [⟨newId' 0, 0, job.name, job.parameters, flag⟩], m.maxParallel⟩ := by
  obtain ⟨specs, hKept, -, -, rfl⟩ := exists_kept_of_expand h
  obtain ⟨hAxes, hKnown, -⟩ := kept_eq_ok_iff.mp hKept
  have hSpec := List.mem_map_of_mem (f := Job.spec) hMem
  rw [specs_numbered] at hSpec
  have hTuple : m.IsTuple job.parameters ∧ ¬ m.Drops job.parameters := of_kept hKept job.spec hSpec
  rw [name_of_mem_numbered hMem]
  exact expand_of_listed hAxes hKnown (List.cons_ne_nil _ _) (by simpa using hTuple) (by simp)

/-- A tuple of a matrix that is asked for is in order as it is, with the flag or without. Different
tuples that are not left out become the jobs, in order and with their flags; so each job of an
expansion can be asked for alone and be marked, and all of them together. For every tuple there is a
mapping that is read as it, unless an axis has the name set apart; then no mapping is read as a
tuple. -/
theorem every_tuple_can_be_asked_for (m : Matrix) (hAxes : m.checkAxes = .ok ()) :
    (∀ p, m.IsTuple p → ∀ flag, m.normalize ⟨p, flag⟩ = .ok ⟨p, flag⟩ ∧
      (Instance.flagName ∉ m.axes.keys →
        ∃ nodes, ∀ (doc : Document) (path : Path) (properties : Properties) (left : Nat),
          Instance.reader doc path (.mapping properties nodes) left = .ok (⟨p, flag⟩, left))) ∧
    (∀ specs : List Instance, m.KnownExcludes → specs ≠ [] →
      (∀ spec ∈ specs, m.IsTuple spec.parameters ∧ ¬ m.Drops spec.parameters) →
      (specs.map (·.parameters)).Nodup → ∀ workflow newId,
      { m with instances := specs }.expand workflow newId =
        .ok ⟨workflow, numbered workflow newId specs, m.maxParallel⟩) ∧
    (∀ workflow newId expansion, m.expand workflow newId = .ok expansion →
      (∀ job ∈ expansion.jobs, m.IsTuple job.parameters ∧ ∀ flag newId',
        { m with instances := [⟨job.parameters, flag⟩] }.expand workflow newId' =
          .ok ⟨workflow, [⟨newId' 0, 0, job.name, job.parameters, flag⟩], m.maxParallel⟩) ∧
      ∀ flags : Parameters → Bool,
        { m with instances := expansion.jobs.map fun job : Job => (job.marked flags).spec }.expand
            workflow newId =
          .ok { expansion with jobs := expansion.jobs.map (Job.marked flags) }) ∧
    (Instance.flagName ∈ m.axes.keys →
      ∀ (doc : Document) (path : Path) (node : Node) (left : Nat) (spec : Instance) (left' : Nat),
        Instance.reader doc path node left = .ok (spec, left') →
        ¬ m.IsTuple spec.parameters ∧ ∃ fault, m.normalize spec = .error fault) := by
  refine ⟨fun p tuple flag => ⟨tuple.normalize, fun hNamed => tuple.exists_nodes hNamed flag⟩,
    ?_, ?_, ?_⟩
  · intro specs hKnown hSome hTuples hNodup workflow newId
    exact expand_of_listed hAxes hKnown hSome hTuples hNodup
  · intro workflow newId expansion h
    exact ⟨fun job hMem => ⟨isTuple_of_expand h hMem, expand_of_one h hMem⟩, expand_of_marked h⟩
  · intro hNamed doc path node left spec left' hRead
    have hTakes : Instance.reader.Takes doc node spec := ⟨_, _, _, hRead⟩
    refine ⟨fun tuple => ?_, normalize_of_flag_axis hNamed hTakes⟩
    rw [← tuple.keys_eq] at hNamed
    exact Instance.flagName_notMem_keys hTakes hNamed

/-- The last job of the sample grid is asked for alone and marked, as a mapping and as a matrix. -/
theorem sample_job_asked_for :
    sampleGrid.checkAxes = .ok () ∧ Instance.flagName ∉ sampleGrid.axes.keys ∧
    ∃ expansion, sampleGrid.expand "ci" (fun i => ⟨Uuid.ofNat i⟩) = .ok expansion ∧
      ∃ job ∈ expansion.jobs, job.name = "ci (os=macos, task=test)" ∧
        (∃ nodes, ∀ doc, Instance.reader doc .root (.mapping {} nodes) 0 =
          .ok (⟨job.parameters, true⟩, 0)) ∧
        { sampleGrid with instances := [⟨job.parameters, true⟩] }.expand "ci"
            (fun i => ⟨Uuid.ofNat i⟩) =
          .ok ⟨"ci", [⟨⟨Uuid.ofNat 0⟩, 0, job.name, job.parameters, true⟩], none⟩ := by
  have hAxes : sampleGrid.checkAxes = .ok () := by decide +kernel
  have hNamed : Instance.flagName ∉ sampleGrid.axes.keys := by decide +kernel
  obtain ⟨hTuples, -, hJobs, -⟩ := every_tuple_can_be_asked_for sampleGrid hAxes
  obtain ⟨expansion, hExpand, hNames⟩ : ∃ expansion,
      sampleGrid.expand "ci" (fun i => ⟨Uuid.ofNat i⟩) = .ok expansion ∧
      ∃ job ∈ expansion.jobs, job.name = "ci (os=macos, task=test)" :=
    ⟨_, rfl, _, List.mem_of_getLast? rfl, by decide +kernel⟩
  obtain ⟨job, hMem, hName⟩ := hNames
  obtain ⟨tuple, hAlone⟩ := (hJobs _ _ _ hExpand).1 job hMem
  obtain ⟨nodes, hNodes⟩ := (hTuples job.parameters tuple true).2 hNamed
  exact ⟨hAxes, hNamed, expansion, hExpand, job, hMem, hName, ⟨nodes, fun doc => hNodes doc _ _ _⟩,
    hAlone true _⟩

/-- A matrix whose only axis has the name set apart. -/
def flagMatrix : Matrix where
  axes := Table.ofList [(Instance.flagName, ["a"])]

/-- The axes of this matrix are in order and it has a tuple, which becomes its job; but nothing that
is read as a job asked for has the values of the tuple or is in order. -/
theorem flag_axis_cannot_be_asked_for :
    flagMatrix.checkAxes = .ok () ∧
    flagMatrix.IsTuple (Table.ofList [(Instance.flagName, "a")]) ∧
    (∃ expansion, flagMatrix.expand "ci" (fun i => ⟨Uuid.ofNat i⟩) = .ok expansion ∧
      expansion.jobs.map (·.name) = ["ci (always_run=a)"]) ∧
    ∀ (doc : Document) (path : Path) (node : Node) (left : Nat) (spec : Instance) (left' : Nat),
      Instance.reader doc path node left = .ok (spec, left') →
      spec.parameters ≠ Table.ofList [(Instance.flagName, "a")] ∧
        ∃ fault, flagMatrix.normalize spec = .error fault := by
  refine ⟨by decide +kernel, .cons ⟨rfl, List.mem_singleton.mpr rfl⟩ .nil,
    ⟨_, rfl, by decide +kernel⟩, fun doc path node left spec left' hRead => ?_⟩
  have hTakes : Instance.reader.Takes doc node spec := ⟨_, _, _, hRead⟩
  refine ⟨fun hSame => ?_, normalize_of_flag_axis (List.mem_singleton.mpr rfl) hTakes⟩
  have hAxis : Instance.flagName ∉ spec.parameters.keys := Instance.flagName_notMem_keys hTakes
  rw [hSame] at hAxis
  exact hAxis (List.mem_singleton.mpr rfl)

end Matrix

end ChangeGate
