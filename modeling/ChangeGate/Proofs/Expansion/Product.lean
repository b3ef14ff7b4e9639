import Mathlib.Data.List.Lex
import ChangeGate.Proofs.Expansion.Basic

/-! Expanding a matrix without jobs asked for by name. The jobs are the combinations of the values
of the axes that no partial tuple leaves out, in the order of the places of their values, where the
first axis counts most. No two jobs agree, so the only fault is that nothing is left. -/

namespace ChangeGate

theorem nodup_of_firstRepeated? {seen l : List String} (h : firstRepeated? seen l = none) :
    l.Nodup ∧ ∀ a ∈ l, a ∉ seen := by
  induction l generalizing seen with
  | nil => exact ⟨List.nodup_nil, nofun⟩
  | cons a rest ih =>
      rw [firstRepeated?] at h
      split at h
      · cases h
      · next hSeen =>
          rw [List.contains_iff_mem] at hSeen
          obtain ⟨hNodup, hNew⟩ := ih h
          refine ⟨List.nodup_cons.mpr ⟨fun hMem => hNew a hMem List.mem_cons_self, hNodup⟩, ?_⟩
          rw [List.forall_mem_cons]
          exact ⟨hSeen, fun b hMem hOld => hNew b hMem (List.mem_cons_of_mem _ hOld)⟩

/-- In a list without repetition every item stands before those that come later. -/
theorem pairwise_idxOf_lt {l : List String} (h : l.Nodup) :
    l.Pairwise fun a b => l.idxOf a < l.idxOf b := by
  rw [List.pairwise_iff_getElem]
  intro i j hi hj hLt
  rwa [h.idxOf_getElem i hi, h.idxOf_getElem j hj]

namespace Matrix

variable {m : Matrix} {p q : Parameters} {axes : List (String × List String)}
  {tuple : List (String × String)}

/-- The values of an axis that has been checked differ. -/
theorem nodup_of_checkAxes (h : m.checkAxes = .ok ()) : ∀ axis ∈ m.axes.entries, axis.2.Nodup := by
  unfold checkAxes at h
  split at h
  · cases h
  · intro axis hMem
    have hAxis := forM_eq_ok_iff.mp h axis hMem
    unfold checkAxis at hAxis
    split at hAxis
    · cases hAxis
    · split at hAxis
      · cases hAxis
      · split at hAxis
        · cases hAxis
        · next hNone => exact (nodup_of_firstRepeated? hNone).1

/-- The combinations are the lists that take a value of every axis. -/
theorem mem_combinations : tuple ∈ combinations axes ↔ Chooses axes tuple := by
  induction axes generalizing tuple with
  | nil => simp [combinations, Chooses]
  | cons axis rest ih =>
      obtain ⟨name, values⟩ := axis
      simp only [combinations, List.mem_flatMap, List.mem_map, ih, Chooses,
        List.forall₂_cons_left_iff]
      constructor
      · rintro ⟨value, hMem, tail, hTail, rfl⟩
        exact ⟨(name, value), tail, ⟨rfl, hMem⟩, hTail, rfl⟩
      · rintro ⟨⟨_, value⟩, tail, ⟨rfl, hMem⟩, hTail, rfl⟩
        exact ⟨value, hMem, tail, hTail, rfl⟩

/-- The places of values in their axes. -/
def places (axes : List (String × List String)) (values : List String) : List Nat :=
  List.zipWith (fun axis value => axis.2.idxOf value) axes values

/-- A tuple comes before another if at the first axis at which their values have different places,
its value has the lower one. -/
def Earlier (m : Matrix) (p q : Parameters) : Prop :=
  List.Lex (· < ·) (places m.axes.entries p.values) (places m.axes.entries q.values)

theorem Earlier.ne (earlier : m.Earlier p q) : p ≠ q := by
  rintro rfl
  exact List.lex_irrefl (fun n => Nat.lt_irrefl n) _ earlier

theorem pairwise_combinations (h : ∀ axis ∈ axes, axis.2.Nodup) :
    (combinations axes).Pairwise fun a b =>
      List.Lex (· < ·) (places axes (a.map Prod.snd)) (places axes (b.map Prod.snd)) := by
  induction axes with
  | nil => exact List.pairwise_singleton _ _
  | cons axis rest ih =>
      obtain ⟨name, values⟩ := axis
      obtain ⟨hValues, hRest⟩ := List.forall_mem_cons.mp h
      rw [combinations, List.pairwise_flatMap]
      constructor
      · -- combinations with one value of the first axis are told apart by the others
        intro value _
        rw [List.pairwise_map]
        exact (ih hRest).imp fun hLex => .cons hLex
      · refine (pairwise_idxOf_lt hValues).imp fun hLt a hFirst b hSecond => ?_
        obtain ⟨tail, -, rfl⟩ := List.mem_map.mp hFirst
        obtain ⟨tail', -, rfl⟩ := List.mem_map.mp hSecond
        exact .rel hLt

theorem entries_of_mem_combinations (h : tuple ∈ combinations m.axes.entries) :
    (Table.ofList tuple).entries = tuple := by
  have hNames : tuple.map Prod.fst = m.axes.keys := (mem_combinations.mp h).names_eq
  exact Table.entries_ofList (hNames ▸ m.axes.nodup_keys)

/-- The product of a matrix has the tuples, none of which always runs. -/
theorem mem_product {spec : Instance} :
    spec ∈ m.product ↔ m.IsTuple spec.parameters ∧ spec.alwaysRun = false := by
  rw [product, List.mem_map]
  constructor
  · rintro ⟨tuple, hMem, rfl⟩
    refine ⟨?_, rfl⟩
    rw [IsTuple, entries_of_mem_combinations hMem]
    exact mem_combinations.mp hMem
  · obtain ⟨p, alwaysRun⟩ := spec
    rintro ⟨tuple, rfl⟩
    have hMem : p.entries ∈ combinations m.axes.entries := mem_combinations.mpr tuple
    exact ⟨p.entries, hMem, by rw [p.ofList_entries]⟩

theorem pairwise_product (hAxes : m.checkAxes = .ok ()) :
    m.product.Pairwise fun a b => m.Earlier a.parameters b.parameters := by
  have hValues : ∀ tuple ∈ combinations m.axes.entries,
      (Table.ofList tuple).values = tuple.map Prod.snd :=
    fun tuple hMem => congrArg (List.map Prod.snd) (entries_of_mem_combinations hMem)
  rw [product, List.pairwise_map]
  refine (pairwise_combinations (nodup_of_checkAxes hAxes)).imp_of_mem fun hMem hMem' hLex => ?_
  rw [Earlier, hValues _ hMem, hValues _ hMem']
  exact hLex

theorem kept_of_product (hAxes : m.checkAxes = .ok ()) (hAll : m.instances = [])
    (hKnown : m.KnownExcludes) : m.kept = .ok (m.spared m.product) := by
  refine kept_eq_ok_iff.mpr ⟨hAxes, hKnown, m.product, ?_, rfl⟩
  rw [allInstances, hAll]
  rfl

/-- No two combinations agree. -/
theorem firstDuplicate?_spared_product (hAxes : m.checkAxes = .ok ()) :
    firstDuplicate? [] (m.spared m.product) = none := by
  have hTuple : ∀ spec ∈ m.spared m.product, m.IsTuple spec.parameters :=
    fun spec hMem => (mem_product.mp (mem_spared.mp hMem).1).1
  rw [firstDuplicate?_nil_eq_none_iff fun spec hMem => (hTuple spec hMem).keys_eq]
  refine ((pairwise_product hAxes).filter _).imp_of_mem fun hMem hMem' earlier hAlike => ?_
  have hKeys := (hTuple _ hMem).keys_eq.trans (hTuple _ hMem').keys_eq.symm
  exact earlier.ne (Table.eq_of_alike hKeys hAlike)

theorem mem_parameters_spared_product :
    p ∈ (m.spared m.product).map (·.parameters) ↔ m.IsTuple p ∧ ¬ m.Drops p := by
  simp only [List.mem_map, mem_spared, mem_product]
  constructor
  · rintro ⟨spec, ⟨⟨tuple, -⟩, hKept⟩, rfl⟩
    exact ⟨tuple, hKept⟩
  · rintro ⟨tuple, hKept⟩
    exact ⟨⟨p, false⟩, ⟨⟨tuple, rfl⟩, hKept⟩, rfl⟩

theorem spared_product_eq_nil_iff :
    m.spared m.product = [] ↔ ∀ p, m.IsTuple p → m.Drops p := by
  rw [← List.map_eq_nil_iff (f := (·.parameters)), List.eq_nil_iff_forall_not_mem]
  refine forall_congr' fun p => ?_
  rw [mem_parameters_spared_product, not_and, not_not]

section

variable (hAxes : m.checkAxes = .ok ()) (hAll : m.instances = []) (hKnown : m.KnownExcludes)
  (workflow : String) (newId : Nat → JobId)

include hAxes hAll hKnown

theorem expand_of_product : m.expand workflow newId =
    if m.spared m.product = [] then .error .noJobs
    else .ok ⟨workflow, numbered workflow newId (m.spared m.product), m.maxParallel⟩ := by
  have hKept := kept_of_product hAxes hAll hKnown
  split
  · next hNone => exact expand_of_nil hKept hNone
  · next hSome => exact expand_of_distinct hKept (firstDuplicate?_spared_product hAxes) hSome

/-- Of the partial tuples it matters only which there are that are not empty. -/
theorem expand_of_exclude {exclude : List Parameters}
    (hSame : ∀ e : Parameters, e.keys ≠ [] → (e ∈ exclude ↔ e ∈ m.exclude)) :
    { m with exclude := exclude }.expand workflow newId = m.expand workflow newId := by
  have within : { m with exclude := exclude }.ExcludesWithin m :=
    fun e hMem hKeys => ⟨e, (hSame e hKeys).mp hMem, .refl e⟩
  have within' : m.ExcludesWithin { m with exclude := exclude } :=
    fun e hMem hKeys => ⟨e, (hSame e hKeys).mpr hMem, .refl e⟩
  have hKept := kept_of_product (m := { m with exclude := exclude }) hAxes hAll
    (hKnown.anti rfl within)
  rw [spared_congr within within'] at hKept
  exact expand_congr (hKept.trans (kept_of_product hAxes hAll hKnown).symm) rfl

end

/-- The jobs of a product are in its order and keep its flags. -/
theorem of_numbered_product (hAxes : m.checkAxes = .ok ()) {workflow : String}
    {newId : Nat → JobId} {jobs : List Job}
    (h : jobs = numbered workflow newId (m.spared m.product)) :
    jobs.Pairwise (fun a b => m.Earlier a.parameters b.parameters) ∧
      ∀ job ∈ jobs, job.parameters.keys = m.axes.keys ∧ job.alwaysRun = false := by
  have hSpecs : jobs.map Job.spec = m.spared m.product := by rw [h, specs_numbered]
  have hOrder := (pairwise_product hAxes).filter fun spec => ¬ m.Drops spec.parameters
  constructor
  · rwa [← spared, ← hSpecs, List.pairwise_map] at hOrder
  · intro job hMem
    have hSpec : job.spec ∈ m.spared m.product := hSpecs ▸ List.mem_map_of_mem hMem
    obtain ⟨tuple, hNever⟩ := mem_product.mp (mem_spared.mp hSpec).1
    exact ⟨tuple.keys_eq, hNever⟩

/-- Where no jobs are asked for, the jobs of a matrix are the tuples that no partial tuple leaves
out, each once, in the order of the places of their values. It does not expand exactly if every
tuple is left out, and then for want of jobs. What is left out depends on which partial tuples
there are that are not empty. -/
theorem combinations_become_jobs (hAxes : m.checkAxes = .ok ()) (hAll : m.instances = [])
    (hKnown : m.KnownExcludes) (workflow : String) (newId : Nat → JobId) :
    ((∃ fault, m.expand workflow newId = .error fault) ↔ ∀ p, m.IsTuple p → m.Drops p) ∧
    (∀ fault, m.expand workflow newId = .error fault →
      fault = .noJobs ∧ fault.toError = .invalidMatrix "matrix expands to zero jobs") ∧
    (∀ expansion, m.expand workflow newId = .ok expansion →
      (∀ p, p ∈ expansion.jobs.map (·.parameters) ↔ m.IsTuple p ∧ ¬ m.Drops p) ∧
      (expansion.jobs.map (·.parameters)).Nodup ∧
      expansion.jobs.Pairwise (fun a b => m.Earlier a.parameters b.parameters) ∧
      (∀ job ∈ expansion.jobs, job.parameters.keys = m.axes.keys ∧ job.alwaysRun = false) ∧
      expansion.jobs.map (·.index) = List.range expansion.jobs.length) ∧
    ∀ exclude : List Parameters, (∀ e, e.keys ≠ [] → (e ∈ exclude ↔ e ∈ m.exclude)) →
      { m with exclude := exclude }.expand workflow newId = m.expand workflow newId := by
  have hExpand := expand_of_product hAxes hAll hKnown workflow newId
  refine ⟨?_, ?_, ?_, fun exclude => expand_of_exclude hAxes hAll hKnown workflow newId⟩
  · rw [hExpand, ← spared_product_eq_nil_iff]
    split
    · next hNone => exact iff_of_true ⟨_, rfl⟩ hNone
    · next hSome => exact iff_of_false (fun ⟨_, h⟩ => nomatch h) hSome
  · intro fault h
    rw [hExpand] at h
    split at h
    · cases h
      exact ⟨rfl, rfl⟩
    · cases h
  · intro expansion h
    have hIndices := indices_of_expand h
    rw [hExpand] at h
    split at h
    · cases h
    · cases h
      obtain ⟨hOrder, hFlags⟩ := of_numbered_product hAxes rfl
      refine ⟨fun p => ?_, ?_, hOrder, hFlags, hIndices⟩
      · rw [parameters_numbered, mem_parameters_spared_product]
      · rw [List.Nodup, List.pairwise_map]
        exact hOrder.imp Earlier.ne

/-- Two axes of two values each, where one combination is left out. -/
def sampleGrid : Matrix where
  axes := Table.ofList [("os", ["linux", "macos"]), ("task", ["lint", "test"])]
  exclude := [∅, Table.ofList [("task", "lint"), ("os", "macos")]]

theorem sample_combinations_expanded :
    sampleGrid.checkAxes = .ok () ∧ sampleGrid.instances = [] ∧ sampleGrid.KnownExcludes ∧
    ∃ expansion, sampleGrid.expand "ci" (fun i => ⟨Uuid.ofNat i⟩) = .ok expansion ∧
      expansion.jobs.map (·.name) =
        ["ci (os=linux, task=lint)", "ci (os=linux, task=test)", "ci (os=macos, task=test)"] ∧
      (expansion.jobs.map (·.parameters)).Nodup := by
  have hAxes : sampleGrid.checkAxes = .ok () := by decide +kernel
  have hKnown : sampleGrid.KnownExcludes := by unfold KnownExcludes; decide +kernel
  obtain ⟨-, -, hJobs, -⟩ :=
    combinations_become_jobs hAxes rfl hKnown "ci" (fun i => ⟨Uuid.ofNat i⟩)
  refine ⟨hAxes, rfl, hKnown, _, rfl, by decide +kernel, (hJobs _ rfl).2.1⟩

end Matrix

end ChangeGate
