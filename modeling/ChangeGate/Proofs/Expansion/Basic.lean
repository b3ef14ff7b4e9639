import ChangeGate.Expansion
import ChangeGate.Proofs.Except
import ChangeGate.Proofs.Table

/-! How a matrix expands. What is kept of its instances becomes its jobs, in order, if there is
anything and no two instances agree; otherwise the first instance that agrees with an earlier one is
at fault. All other faults are those of an invalid matrix. -/

namespace ChangeGate

/-- The instance that asks for a job. -/
def Job.spec (job : Job) : Instance := ⟨job.parameters, job.alwaysRun⟩

/-- A fault that is reported as that of an invalid matrix. -/
def Matrix.Fault.IsInvalid (fault : Fault) : Prop := ∃ detail, fault.toError = .invalidMatrix detail

namespace Matrix

variable {m m' : Matrix} {p q : Parameters} {spec spec' : Instance} {specs : List Instance}
  {fault : Fault} {workflow : String} {newId : Nat → JobId}

/-- Entries that take a value of each axis, in order. -/
def Chooses (axes : List (String × List String)) (entries : List (String × String)) : Prop :=
  List.Forall₂ (fun axis entry => entry.1 = axis.1 ∧ entry.2 ∈ axis.2) axes entries

theorem Chooses.names_eq {axes : List (String × List String)} {entries : List (String × String)}
    (chooses : Chooses axes entries) : entries.map Prod.fst = axes.map Prod.fst := by
  rw [← List.forall₂_eq_eq_eq, List.forall₂_map_left_iff, List.forall₂_map_right_iff]
  exact (chooses.imp fun _ _ h => h.1).flip

/-- A tuple takes a value of every axis of the matrix, in the order of the axes, and no more. -/
def IsTuple (m : Matrix) (p : Parameters) : Prop := Chooses m.axes.entries p.entries

theorem IsTuple.keys_eq (tuple : m.IsTuple p) : p.keys = m.axes.keys := tuple.names_eq

/-- Some partial tuple that is not empty leaves out what has its values. -/
def Drops (m : Matrix) (p : Parameters) : Prop := ∃ e ∈ m.exclude, e.keys ≠ [] ∧ p.Includes e

theorem agrees_iff {e : Parameters} : agrees p e = true ↔ e.keys ≠ [] ∧ p.Includes e := by
  have hEmpty : e.isEmpty = false ↔ e.keys ≠ [] := by
    simp [Table.isEmpty, Table.keys, List.isEmpty_eq_false_iff]
  have hAll : (e.entries.all fun entry => p.get? entry.1 == some entry.2) = true ↔
      p.Includes e := by
    simp only [List.all_eq_true, beq_iff_eq, Prod.forall, Table.mem_entries_iff]
    rfl
  rw [agrees, Bool.and_eq_true, Bool.not_eq_true', hEmpty, hAll]

theorem isExcluded_iff : m.isExcluded p = true ↔ m.Drops p := by
  simp only [isExcluded, List.any_eq_true, agrees_iff]
  rfl

instance (m : Matrix) : DecidablePred m.Drops := fun _ => decidable_of_iff _ isExcluded_iff

theorem Drops.of_alike (drops : m.Drops p) (h : p.Alike q) : m.Drops q := by
  obtain ⟨e, hMem, hKeys, hIncludes⟩ := drops
  exact ⟨e, hMem, hKeys, (h.includes_iff (.refl e)).mp hIncludes⟩

/-- The instances that no partial tuple leaves out. -/
def spared (m : Matrix) (specs : List Instance) : List Instance :=
  specs.filter fun spec => ¬ m.Drops spec.parameters

theorem mem_spared : spec ∈ m.spared specs ↔ spec ∈ specs ∧ ¬ m.Drops spec.parameters := by
  simp [spared]

/-- The partial tuples name only axes of the matrix. -/
def KnownExcludes (m : Matrix) : Prop := ∀ e ∈ m.exclude, ∀ axis ∈ e.keys, axis ∈ m.axes.keys

/-- Each partial tuple of the first matrix that is not empty is one of the second, up to the order
of its names. -/
def ExcludesWithin (m m' : Matrix) : Prop :=
  ∀ e ∈ m.exclude, e.keys ≠ [] → ∃ e' ∈ m'.exclude, e.Alike e'

theorem Drops.mono (drops : m.Drops p) (within : m.ExcludesWithin m') : m'.Drops p := by
  obtain ⟨e, hMem, hKeys, hIncludes⟩ := drops
  obtain ⟨e', hMem', hAlike⟩ := within e hMem hKeys
  refine ⟨e', hMem', ?_, ((Table.Alike.refl p).includes_iff hAlike).mp hIncludes⟩
  obtain ⟨name, hName⟩ := List.exists_mem_of_ne_nil _ hKeys
  exact List.ne_nil_of_mem (hAlike.mem_keys_iff.mp hName)

theorem KnownExcludes.anti (known : m'.KnownExcludes) (hAxes : m'.axes = m.axes)
    (within : m.ExcludesWithin m') : m.KnownExcludes := by
  intro e hMem axis hAxis
  obtain ⟨e', hMem', hAlike⟩ := within e hMem (List.ne_nil_of_mem hAxis)
  rw [← hAxes]
  exact known e' hMem' axis (hAlike.mem_keys_iff.mp hAxis)

theorem spared_congr (within : m.ExcludesWithin m') (within' : m'.ExcludesWithin m) :
    m.spared specs = m'.spared specs := by
  refine List.filter_congr fun spec _ => ?_
  rw [decide_eq_decide]
  exact not_congr ⟨fun drops => drops.mono within, fun drops => drops.mono within'⟩

theorem checkKnownAxes_eq_ok_iff :
    m.checkKnownAxes p = .ok () ↔ ∀ axis ∈ p.keys, axis ∈ m.axes.keys := by
  have hNone : (p.keys.find? fun axis => !m.axes.contains axis) = none ↔
      ∀ axis ∈ p.keys, axis ∈ m.axes.keys := by
    simp [List.find?_eq_none, Table.contains_iff]
  rw [checkKnownAxes, ← hNone]
  cases p.keys.find? fun axis => !m.axes.contains axis <;> simp

theorem isInvalid_of_checkKnownAxes (h : m.checkKnownAxes p = .error fault) : fault.IsInvalid := by
  unfold checkKnownAxes at h
  split at h
  · cases h
    exact ⟨_, rfl⟩
  · cases h

theorem isInvalid_of_checkAxis {axis : String} {values : List String}
    (h : checkAxis axis values = .error fault) : fault.IsInvalid := by
  unfold checkAxis at h
  split at h
  · cases h
    exact ⟨_, rfl⟩
  · split at h
    · cases h
      exact ⟨_, rfl⟩
    · split at h
      · cases h
        exact ⟨_, rfl⟩
      · cases h

theorem isInvalid_of_checkAxes (h : m.checkAxes = .error fault) : fault.IsInvalid := by
  unfold checkAxes at h
  split at h
  · cases h
    exact ⟨_, rfl⟩
  · obtain ⟨axis, -, hFault⟩ := error_of_forM h
    exact isInvalid_of_checkAxis hFault

theorem kept_eq_ok_iff : m.kept = .ok specs ↔
    m.checkAxes = .ok () ∧ m.KnownExcludes ∧ ∃ all, m.allInstances = .ok all ∧
      m.spared all = specs := by
  have hSpared : ∀ all, m.spared all = all.filter fun spec => !m.isExcluded spec.parameters := by
    intro all
    refine List.filter_congr fun spec _ => ?_
    rw [Bool.eq_iff_iff, decide_eq_true_eq, ← isExcluded_iff, Bool.not_eq_true, Bool.not_eq_true']
  have hExcludes : m.exclude.forM m.checkKnownAxes = .ok () ↔ m.KnownExcludes := by
    rw [forM_eq_ok_iff]
    exact forall₂_congr fun _ _ => checkKnownAxes_eq_ok_iff
  rw [← hExcludes]
  constructor
  · intro h
    obtain ⟨⟨⟩, hAxes, h⟩ := ok_of_bind h
    obtain ⟨⟨⟩, hKnown, h⟩ := ok_of_bind h
    obtain ⟨all, hAll, h⟩ := ok_of_bind h
    cases h
    exact ⟨hAxes, hKnown, all, hAll, hSpared all⟩
  · rintro ⟨hAxes, hKnown, all, hAll, rfl⟩
    rw [kept, hAxes, hKnown, hAll, hSpared]
    rfl

/-- No two of the instances agree. -/
def Distinct (specs : List Instance) : Prop :=
  specs.Pairwise fun a b => ¬ a.parameters.Alike b.parameters

/-- The first instance that agrees with an earlier one. -/
def IsFirstRepeat (specs : List Instance) (spec : Instance) : Prop :=
  ∃ before after, specs = before ++ spec :: after ∧ Distinct before ∧
    ∃ earlier ∈ before, earlier.parameters.Alike spec.parameters

theorem IsFirstRepeat.mem (h : IsFirstRepeat specs spec) : spec ∈ specs := by
  obtain ⟨before, after, rfl, -⟩ := h
  exact List.mem_append_right _ List.mem_cons_self

/-- The value that an instance gives each axis. -/
def given (spec : Instance) : String → Option String := spec.parameters.get?

theorem alike_iff_given_eq : spec.parameters.Alike spec'.parameters ↔ given spec = given spec' :=
  funext_iff.symm

theorem distinct_congr {others : List Instance} (h : specs.map given = others.map given) :
    Distinct specs ↔ Distinct others := by
  have hNodup : ∀ specs, Distinct specs ↔ (specs.map given).Nodup := by
    intro specs
    simp only [Distinct, alike_iff_given_eq, List.Nodup, List.pairwise_map]
  rw [hNodup, hNodup, h]

theorem IsFirstRepeat.of_given_eq {others : List Instance} (first : IsFirstRepeat specs spec)
    (h : others.map given = specs.map given) :
    ∃ other, IsFirstRepeat others other ∧ spec.parameters.Alike other.parameters := by
  obtain ⟨before, after, rfl, distinct, earlier, hMem, hAlike⟩ := first
  rw [List.map_append, List.map_cons, List.map_eq_append_iff] at h
  -- the other list is cut at the same place
  obtain ⟨before', rest, rfl, hBefore, hRest⟩ := h
  obtain ⟨other, after', rfl, hOther, -⟩ := List.map_eq_cons_iff.mp hRest
  have hEarlier : given earlier ∈ before'.map given := hBefore ▸ List.mem_map_of_mem hMem
  obtain ⟨earlier', hMem', hSame⟩ := List.mem_map.mp hEarlier
  refine ⟨other, ⟨before', after', rfl, (distinct_congr hBefore).mpr distinct, earlier', hMem', ?_⟩,
    alike_iff_given_eq.mpr hOther.symm⟩
  exact alike_iff_given_eq.mpr
    (hSame.trans ((alike_iff_given_eq.mp hAlike).trans hOther.symm))

theorem firstDuplicate?_eq_none_iff {seen : List (List String)} :
    firstDuplicate? seen specs = none ↔ (specs.map (·.parameters.values)).Nodup ∧
      ∀ spec ∈ specs, spec.parameters.values ∉ seen := by
  induction specs generalizing seen with
  | nil => simp [firstDuplicate?]
  | cons first rest ih =>
      by_cases hSeen : first.parameters.values ∈ seen
      · simp [firstDuplicate?, hSeen]
      · simp only [firstDuplicate?, List.contains_eq_mem, hSeen, decide_false, Bool.false_eq_true,
          if_false, ih, List.map_cons, List.nodup_cons, List.mem_map, List.mem_cons, not_or,
          forall_eq_or_imp, not_false_eq_true, true_and, not_exists, not_and]
        constructor
        · rintro ⟨hNodup, hNew⟩
          exact ⟨⟨fun other hMem => (hNew other hMem).1, hNodup⟩, fun other hMem =>
            (hNew other hMem).2⟩
        · rintro ⟨⟨hFirst, hNodup⟩, hNew⟩
          exact ⟨hNodup, fun other hMem => ⟨hFirst other hMem, hNew other hMem⟩⟩

/-- What the search comes upon has the values of an instance before it, and nothing before it
has. -/
theorem of_firstDuplicate? {seen : List (List String)}
    (h : firstDuplicate? seen specs = some spec) :
    ∃ before after, specs = before ++ spec :: after ∧ firstDuplicate? seen before = none ∧
      (spec.parameters.values ∈ seen ∨
        spec.parameters.values ∈ before.map (·.parameters.values)) := by
  induction specs generalizing seen with
  | nil => cases h
  | cons first rest ih =>
      rw [firstDuplicate?] at h
      split at h
      · next hSeen =>
          cases h
          exact ⟨[], rest, rfl, rfl, .inl (List.contains_iff_mem.mp hSeen)⟩
      · next hSeen =>
          obtain ⟨before, after, rfl, hNone, hOld⟩ := ih h
          refine ⟨first :: before, after, rfl, ?_, ?_⟩
          · rw [firstDuplicate?, if_neg hSeen]
            exact hNone
          · rw [List.mem_cons, or_assoc, or_left_comm] at hOld
            rwa [List.map_cons, List.mem_cons]

section Keys

variable {keys : List String} (hKeys : ∀ spec ∈ specs, spec.parameters.keys = keys)

include hKeys

theorem values_eq_iff (hMem : spec ∈ specs) (hMem' : spec' ∈ specs) :
    spec.parameters.values = spec'.parameters.values ↔
      spec.parameters.Alike spec'.parameters := by
  have hSame := (hKeys spec hMem).trans (hKeys spec' hMem').symm
  constructor
  · intro hValues name
    rw [Table.eq_of_values hSame hValues]
  · intro hAlike
    rw [Table.eq_of_alike hSame hAlike]

/-- Instances with the same names in the same order are told apart by their values. -/
theorem nodup_values_iff : (specs.map (·.parameters.values)).Nodup ↔ Distinct specs := by
  rw [List.Nodup, List.pairwise_map]
  exact List.Pairwise.iff_of_mem fun hMem hMem' => not_congr (values_eq_iff hKeys hMem hMem')

theorem firstDuplicate?_nil_eq_none_iff : firstDuplicate? [] specs = none ↔ Distinct specs := by
  rw [firstDuplicate?_eq_none_iff, nodup_values_iff hKeys]
  exact and_iff_left fun _ _ => List.not_mem_nil

theorem isFirstRepeat_of_firstDuplicate? (h : firstDuplicate? [] specs = some spec) :
    IsFirstRepeat specs spec := by
  obtain ⟨before, after, rfl, hNone, hOld⟩ := of_firstDuplicate? h
  have hBefore : ∀ spec ∈ before, spec.parameters.keys = keys :=
    fun spec hMem => hKeys spec (List.mem_append_left _ hMem)
  obtain ⟨earlier, hMem, hValues⟩ := List.mem_map.mp (hOld.resolve_left List.not_mem_nil)
  refine ⟨before, after, rfl, (firstDuplicate?_nil_eq_none_iff hBefore).mp hNone, earlier, hMem, ?_⟩
  exact (values_eq_iff hKeys (List.mem_append_left _ hMem) (by simp)).mp hValues

end Keys

/-- The jobs of instances, in order. -/
def numbered (workflow : String) (newId : Nat → JobId) (specs : List Instance) : List Job :=
  specs.zipIdx.map fun (spec, i) =>
    { id := newId i, index := i, name := jobName workflow spec.parameters,
      parameters := spec.parameters, alwaysRun := spec.alwaysRun : Job }

theorem specs_numbered (workflow : String) (newId : Nat → JobId) (specs : List Instance) :
    (numbered workflow newId specs).map Job.spec = specs :=
  calc (numbered workflow newId specs).map Job.spec
    _ = specs.zipIdx.map Prod.fst := List.map_map
    _ = specs := List.zipIdx_map_fst _ _

theorem parameters_numbered (workflow : String) (newId : Nat → JobId) (specs : List Instance) :
    (numbered workflow newId specs).map (·.parameters) = specs.map (·.parameters) :=
  calc (numbered workflow newId specs).map (·.parameters)
    _ = ((numbered workflow newId specs).map Job.spec).map (·.parameters) := by
      rw [List.map_map]
      rfl
    _ = specs.map (·.parameters) := by rw [specs_numbered]

theorem name_of_mem_numbered {job : Job} (h : job ∈ numbered workflow newId specs) :
    job.name = jobName workflow job.parameters := by
  obtain ⟨⟨spec, i⟩, -, rfl⟩ := List.mem_map.mp h
  rfl

theorem indices_numbered :
    (numbered workflow newId specs).map (·.index) = List.range specs.length := by
  simp [numbered, Function.comp_def, List.range_eq_range']

theorem expand_of_fault (h : m.kept = .error fault) :
    m.expand workflow newId = .error fault := by
  rw [expand, h]
  rfl

section Kept

variable (hKept : m.kept = .ok specs)

include hKept

theorem expand_of_repeat (h : firstDuplicate? [] specs = some spec) :
    m.expand workflow newId = .error (.duplicateJob (jobName workflow spec.parameters)) := by
  rw [expand, hKept]
  simp [bind, Except.bind, h, throw, throwThe, MonadExceptOf.throw]

theorem expand_of_nil (h : specs = []) : m.expand workflow newId = .error .noJobs := by
  subst h
  rw [expand, hKept]
  rfl

theorem expand_of_distinct (hDistinct : firstDuplicate? [] specs = none) (hSome : specs ≠ []) :
    m.expand workflow newId =
      .ok ⟨workflow, numbered workflow newId specs, m.maxParallel⟩ := by
  rw [expand, hKept]
  simp [bind, Except.bind, hDistinct, hSome, numbered, pure, Except.pure]

end Kept

/-- Matrices that keep the same instances, with the same limit, expand alike. -/
theorem expand_congr (hKept : m'.kept = m.kept)
    (hLimit : m'.maxParallel = m.maxParallel) :
    m'.expand workflow newId = m.expand workflow newId := by
  rw [expand, expand, hKept, hLimit]

/-- Matrices that keep the same instances or both are at fault, with the same limit, have the same
jobs or none. -/
theorem toOption_expand_congr (hKept : ∀ specs, m'.kept = .ok specs ↔ m.kept = .ok specs)
    (hLimit : m'.maxParallel = m.maxParallel) :
    (m'.expand workflow newId).toOption = (m.expand workflow newId).toOption := by
  cases hOwn : m.kept with
  | ok specs => rw [expand_congr (((hKept specs).mpr hOwn).trans hOwn.symm) hLimit]
  | error fault =>
      cases hOther : m'.kept with
      | ok specs =>
          rw [(hKept specs).mp hOther] at hOwn
          cases hOwn
      | error fault' =>
          rw [expand_of_fault hOwn, expand_of_fault hOther]
          rfl

/-- A matrix expands to what is kept of its instances. -/
theorem exists_kept_of_expand {expansion : Expansion}
    (h : m.expand workflow newId = .ok expansion) :
    ∃ specs, m.kept = .ok specs ∧ firstDuplicate? [] specs = none ∧ specs ≠ [] ∧
      expansion = ⟨workflow, numbered workflow newId specs, m.maxParallel⟩ := by
  cases hKept : m.kept with
  | error fault =>
      rw [expand_of_fault hKept] at h
      cases h
  | ok specs =>
      cases hSearch : firstDuplicate? [] specs with
      | some spec =>
          rw [expand_of_repeat hKept hSearch] at h
          cases h
      | none =>
          by_cases hNil : specs = []
          · rw [expand_of_nil hKept hNil] at h
            cases h
          · rw [expand_of_distinct hKept hSearch hNil] at h
            exact ⟨specs, rfl, hSearch, hNil, (Except.ok.inj h).symm⟩

/-- A matrix that does not expand is at fault before its instances are compared, or two of them
agree, or none is left. -/
theorem error_of_expand (h : m.expand workflow newId = .error fault) :
    m.kept = .error fault ∨ (∃ name, fault = .duplicateJob name) ∨ fault = .noJobs := by
  cases hKept : m.kept with
  | error fault' =>
      rw [expand_of_fault hKept] at h
      cases h
      exact .inl rfl
  | ok specs =>
      cases hSearch : firstDuplicate? [] specs with
      | some spec =>
          rw [expand_of_repeat hKept hSearch] at h
          exact .inr (.inl ⟨_, (Except.error.inj h).symm⟩)
      | none =>
          by_cases hNil : specs = []
          · rw [expand_of_nil hKept hNil] at h
            exact .inr (.inr (Except.error.inj h).symm)
          · rw [expand_of_distinct hKept hSearch hNil] at h
            cases h

/-- The jobs of an expansion carry their places. -/
theorem indices_of_expand {expansion : Expansion} (h : m.expand workflow newId = .ok expansion) :
    expansion.jobs.map (·.index) = List.range expansion.jobs.length := by
  obtain ⟨specs, -, -, -, rfl⟩ := exists_kept_of_expand h
  rw [indices_numbered]
  simp [numbered]

/-- A matrix expands to at least one job, and the limit is that of the matrix. -/
theorem of_expand {expansion : Expansion} (h : m.expand workflow newId = .ok expansion) :
    expansion.jobs ≠ [] ∧ expansion.maxParallel = m.maxParallel := by
  obtain ⟨specs, -, -, hSome, rfl⟩ := exists_kept_of_expand h
  exact ⟨by simpa [numbered] using hSome, rfl⟩

end Matrix

/-- What a job is apart from its identifier. -/
def Job.description (job : Job) : Nat × String × Parameters × Bool :=
  (job.index, job.name, job.parameters, job.alwaysRun)

namespace Matrix

/-- Matrices that keep the same instances expand to the same jobs, whatever identifiers these are
given. -/
theorem expand_of_kept_eq {m m' : Matrix} {workflow : String} {newId : Nat → JobId}
    {expansion : Expansion} (h : m.expand workflow newId = .ok expansion)
    (hKept : m'.kept = m.kept) (newId' : Nat → JobId) :
    ∃ expansion', m'.expand workflow newId' = .ok expansion' ∧
      expansion'.jobs.map Job.description = expansion.jobs.map Job.description := by
  obtain ⟨specs, hSpecs, hDistinct, hSome, rfl⟩ := exists_kept_of_expand h
  refine ⟨_, expand_of_distinct (hKept.trans hSpecs) hDistinct hSome, ?_⟩
  simp [numbered, Job.description, Function.comp_def]

/-- Whether a matrix expands, and to what, does not hang on the identifiers that the jobs are
given. -/
theorem expand_rename {m : Matrix} {workflow : String} {newId : Nat → JobId}
    {expansion : Expansion} (h : m.expand workflow newId = .ok expansion) (newId' : Nat → JobId) :
    ∃ expansion', m.expand workflow newId' = .ok expansion' ∧
      expansion'.jobs.map Job.description = expansion.jobs.map Job.description :=
  expand_of_kept_eq h rfl newId'

end Matrix

end ChangeGate
