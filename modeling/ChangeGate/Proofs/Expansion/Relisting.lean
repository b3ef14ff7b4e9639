import ChangeGate.Proofs.Expansion.Listing
import ChangeGate.Proofs.Expansion.Product

/-! Asking for the jobs that a matrix expands to. The product of the axes and its listing are
interchangeable: what a matrix keeps is in order and not left out, so it is kept as it is when it is
asked for by name. -/

namespace ChangeGate

namespace Matrix

variable {m : Matrix} {specs instances : List Instance} {workflow : String}
  {newId : Nat → JobId} {expansion : Expansion}

/-- Whether it was generated or asked for, what a matrix keeps is a tuple that is not left out. -/
theorem of_kept (h : m.kept = .ok specs) :
    ∀ spec ∈ specs, m.IsTuple spec.parameters ∧ ¬ m.Drops spec.parameters := by
  obtain ⟨-, -, all, hAll, rfl⟩ := kept_eq_ok_iff.mp h
  have hTuples : ∀ spec ∈ all, m.IsTuple spec.parameters := by
    unfold allInstances at hAll
    split at hAll
    · cases hAll
      exact fun spec hMem => (mem_product.mp hMem).1
    · exact isTuple_of_orders ((mapM_eq_ok_iff.mp hAll).imp fun _ _ => normalize_eq_ok_iff.mp)
  intro spec hMem
  obtain ⟨hOld, hKept⟩ := mem_spared.mp hMem
  exact ⟨hTuples spec hOld, hKept⟩

theorem isTuple_of_expand (h : m.expand workflow newId = .ok expansion) {job : Job}
    (hMem : job ∈ expansion.jobs) : m.IsTuple job.parameters := by
  obtain ⟨specs, hKept, -, -, rfl⟩ := exists_kept_of_expand h
  have hSpec := List.mem_map_of_mem (f := Job.spec) hMem
  rw [specs_numbered] at hSpec
  exact (of_kept hKept job.spec hSpec).1

/-- Jobs are told apart by their values. -/
theorem eq_of_parameters_eq (h : m.expand workflow newId = .ok expansion) {a b : Job}
    (ha : a ∈ expansion.jobs) (hb : b ∈ expansion.jobs) (hSame : a.parameters = b.parameters) :
    a = b := by
  obtain ⟨specs, hKept, hNone, -, rfl⟩ := exists_kept_of_expand h
  have hNodup : ((numbered workflow newId specs).map (·.parameters)).Nodup := by
    rw [parameters_numbered]
    refine .of_map Table.values ?_
    rw [List.map_map]
    exact (firstDuplicate?_eq_none_iff.mp hNone).1
  exact List.inj_on_of_nodup_map hNodup ha hb hSame

/-- Tuples that are asked for and not left out are kept, whatever the order of their names. -/
theorem kept_of_tuples (hAxes : m.checkAxes = .ok ()) (hKnown : m.KnownExcludes)
    (hSome : specs ≠ [])
    (hTuples : ∀ spec ∈ specs, m.IsTuple spec.parameters ∧ ¬ m.Drops spec.parameters)
    (hInstances : List.Forall₂ Reorders instances specs) :
    { m with instances := instances }.kept = .ok specs := by
  have hListed : instances ≠ [] := by
    rintro rfl
    exact hSome (List.forall₂_nil_left_iff.mp hInstances)
  have hOrders : List.Forall₂ (Orders { m with instances := instances }) instances specs := by
    refine (forall₂_and_right.mpr ⟨hInstances, hTuples⟩).imp fun spec spec' hBoth => ?_
    obtain ⟨⟨hPerm, hFlag⟩, tuple, -⟩ := hBoth
    exact ⟨tuple, (Table.alike_of_perm hPerm).symm, hFlag.symm⟩
  have hSpared : { m with instances := instances }.spared specs = specs := by
    refine List.filter_eq_self.mpr fun spec hMem => ?_
    rw [decide_eq_true_eq]
    exact (hTuples spec hMem).2
  exact (kept_eq_ok_iff_orders (m := { m with instances := instances }) hAxes hListed).mpr
    ⟨hKnown, specs, hOrders, hSpared⟩

/-- What a matrix keeps it also keeps when it is asked for; nothing is left out a second time. -/
theorem kept_of_relisted (h : m.kept = .ok specs) (hSome : specs ≠ [])
    (hInstances : List.Forall₂ Reorders instances specs) :
    { m with instances := instances }.kept = .ok specs := by
  obtain ⟨hAxes, hKnown, -⟩ := kept_eq_ok_iff.mp h
  exact kept_of_tuples hAxes hKnown hSome (of_kept h) hInstances

/-- A matrix that asks for the jobs that another expands to, with the names of each in any order,
expands to the same jobs. -/
theorem relisted_expands_alike (h : m.expand workflow newId = .ok expansion)
    (hInstances : List.Forall₂ (fun spec job => Reorders spec job.spec) instances expansion.jobs)
    (newId' : Nat → JobId) :
    ∃ expansion', { m with instances := instances }.expand workflow newId' = .ok expansion' ∧
      expansion'.jobs.map Job.description = expansion.jobs.map Job.description ∧
      expansion'.workflow = expansion.workflow ∧
      expansion'.maxParallel = expansion.maxParallel := by
  obtain ⟨specs, hKept, hNone, hSome, hExpansion⟩ := exists_kept_of_expand h
  have hSpecs : List.Forall₂ Reorders instances specs := by
    rw [← specs_numbered workflow newId specs, List.forall₂_map_right_iff]
    rwa [hExpansion] at hInstances
  have hSame := kept_of_relisted hKept hSome hSpecs
  obtain ⟨expansion', h', hJobs⟩ := expand_of_kept_eq h (hSame.trans hKept.symm) newId'
  refine ⟨expansion', h', hJobs, ?_⟩
  obtain ⟨-, -, -, -, rfl⟩ := exists_kept_of_expand h'
  rw [hExpansion]
  exact ⟨rfl, rfl⟩

/-- The jobs of the sample grid, with the names of the last the other way round. -/
def sampleRelisting : List Instance :=
  [⟨Table.ofList [("os", "linux"), ("task", "lint")], false⟩,
    ⟨Table.ofList [("os", "linux"), ("task", "test")], false⟩,
    ⟨Table.ofList [("task", "test"), ("os", "macos")], false⟩]

theorem sample_relisted :
    ∃ expansion, sampleGrid.expand "ci" (fun i => ⟨Uuid.ofNat i⟩) = .ok expansion ∧
      List.Forall₂ (fun spec job => Reorders spec job.spec) sampleRelisting expansion.jobs ∧
      ∃ expansion', { sampleGrid with instances := sampleRelisting }.expand "ci"
          (fun i => ⟨Uuid.ofNat (i + 3)⟩) = .ok expansion' ∧
        expansion'.jobs.map Job.description = expansion.jobs.map Job.description := by
  obtain ⟨expansion, h, hSpecs⟩ : ∃ expansion,
      sampleGrid.expand "ci" (fun i => ⟨Uuid.ofNat i⟩) = .ok expansion ∧
      expansion.jobs.map Job.spec =
        [⟨Table.ofList [("os", "linux"), ("task", "lint")], false⟩,
          ⟨Table.ofList [("os", "linux"), ("task", "test")], false⟩,
          ⟨Table.ofList [("os", "macos"), ("task", "test")], false⟩] := ⟨_, rfl, rfl⟩
  have hInstances : List.Forall₂ (fun spec job => Reorders spec job.spec) sampleRelisting
      expansion.jobs := by
    rw [← List.forall₂_map_right_iff (f := Job.spec), hSpecs]
    exact .cons ⟨.refl _, rfl⟩ (.cons ⟨.refl _, rfl⟩ (.cons ⟨.swap _ _ _, rfl⟩ .nil))
  obtain ⟨expansion', h', hJobs, -⟩ :=
    relisted_expands_alike h hInstances (fun i => ⟨Uuid.ofNat (i + 3)⟩)
  exact ⟨expansion, h, hInstances, expansion', h', hJobs⟩

end Matrix

end ChangeGate
