import ChangeGate.Proofs.Expansion.Basic

/-! Expanding a matrix that asks for its jobs by name. Every job asked for, also one that would be
left out, must give each axis one of its values; in the order of the axes it is then settled by its
values, and those that are not left out must differ. In what order a job or a partial tuple was
written down plays no part. -/

namespace ChangeGate

namespace Matrix

variable {m m' : Matrix} {p : Parameters} {spec spec' : Instance} {specs all : List Instance}
  {fault : Fault} {workflow : String} {newId : Nat → JobId}

/-- A tuple gives each axis one of its values and names nothing else. -/
def Declares (m : Matrix) (p : Parameters) : Prop :=
  (∀ name ∈ p.keys, name ∈ m.axes.keys) ∧
    ∀ axis ∈ m.axes.entries, ∃ value ∈ axis.2, p.get? axis.1 = some value

/-- `spec'` is `spec` put in the order of the axes: each axis has the value that `spec` gives it,
and it is one of its values. -/
structure Orders (m : Matrix) (spec spec' : Instance) : Prop where
  tuple : m.IsTuple spec'.parameters
  alike : spec'.parameters.Alike spec.parameters
  alwaysRun : spec'.alwaysRun = spec.alwaysRun

theorem valueFor_eq_ok_iff {axis value : String} {values : List String} :
    valueFor p axis values = .ok value ↔ p.get? axis = some value ∧ value ∈ values := by
  unfold valueFor
  cases p.get? axis with
  | none => simp
  | some given =>
      by_cases hMem : given ∈ values
      · simp only [List.contains_eq_mem, hMem, decide_true, if_true, Except.ok.injEq,
          Option.some.injEq]
        exact ⟨fun h => ⟨h, h ▸ hMem⟩, fun h => h.1⟩
      · simp only [List.contains_eq_mem, hMem, decide_false, Bool.false_eq_true, if_false,
          reduceCtorEq, Option.some.injEq, false_iff, not_and]
        exact fun h => h ▸ hMem

theorem valuesInOrder_eq_mapM (axes : List (String × List String)) :
    valuesInOrder p axes = axes.mapM fun axis =>
      (valueFor p axis.1 axis.2).bind fun value => .ok (axis.1, value) := by
  induction axes with
  | nil => rfl
  | cons axis rest ih =>
      rw [mapM_cons_eq, ← ih, valuesInOrder]
      cases valueFor p axis.1 axis.2 <;> rfl

/-- The value of an axis, with its name, is there if the tuple gives it one that it has. -/
theorem entryFor_eq_ok_iff {axis : String × List String} {entry : String × String} :
    ((valueFor p axis.1 axis.2).bind fun value => .ok (axis.1, value)) = .ok entry ↔
      (entry.1 = axis.1 ∧ entry.2 ∈ axis.2) ∧ p.get? entry.1 = some entry.2 := by
  constructor
  · intro h
    obtain ⟨value, hValue, h⟩ := ok_of_bind h
    obtain ⟨hGiven, hMem⟩ := valueFor_eq_ok_iff.mp hValue
    cases h
    exact ⟨⟨rfl, hMem⟩, hGiven⟩
  · obtain ⟨name, value⟩ := entry
    rintro ⟨⟨rfl, hMem⟩, hGiven⟩
    rw [valueFor_eq_ok_iff.mpr ⟨hGiven, hMem⟩]
    rfl

theorem valuesInOrder_eq_ok_iff {axes : List (String × List String)}
    {entries : List (String × String)} : valuesInOrder p axes = .ok entries ↔
      Chooses axes entries ∧ ∀ entry ∈ entries, p.get? entry.1 = some entry.2 := by
  rw [valuesInOrder_eq_mapM, mapM_eq_ok_iff]
  simp only [entryFor_eq_ok_iff]
  exact forall₂_and_right

theorem exists_valuesInOrder_iff {axes : List (String × List String)} :
    (∃ entries, valuesInOrder p axes = .ok entries) ↔
      ∀ axis ∈ axes, ∃ value ∈ axis.2, p.get? axis.1 = some value := by
  simp only [valuesInOrder_eq_mapM, exists_mapM_eq_ok_iff, entryFor_eq_ok_iff]
  refine forall₂_congr fun axis _ => ?_
  constructor
  · rintro ⟨⟨_, value⟩, ⟨rfl, hMem⟩, hGiven⟩
    exact ⟨value, hMem, hGiven⟩
  · rintro ⟨value, hMem, hGiven⟩
    exact ⟨(axis.1, value), ⟨rfl, hMem⟩, hGiven⟩

theorem normalize_eq_ok_iff : m.normalize spec = .ok spec' ↔ m.Orders spec spec' := by
  constructor
  · intro h
    obtain ⟨⟨⟩, hKnown, h⟩ := ok_of_bind h
    obtain ⟨entries, hValues, h⟩ := ok_of_bind h
    cases h
    obtain ⟨chooses, hGiven⟩ := valuesInOrder_eq_ok_iff.mp hValues
    have hNames : entries.map Prod.fst = m.axes.keys := chooses.names_eq
    have hEntries : (Table.ofList entries).entries = entries :=
      Table.entries_ofList (hNames ▸ m.axes.nodup_keys)
    have tuple : m.IsTuple (Table.ofList entries) := by
      rw [IsTuple, hEntries]
      exact chooses
    refine ⟨tuple, Table.alike_of_includes ?_ ?_, rfl⟩
    · intro name value hValue
      rw [← Table.mem_entries_iff, hEntries] at hValue
      exact hGiven _ hValue
    · intro name hMem
      rw [tuple.keys_eq]
      exact checkKnownAxes_eq_ok_iff.mp hKnown name hMem
  · intro orders
    have hKnown : m.checkKnownAxes spec.parameters = .ok () := by
      refine checkKnownAxes_eq_ok_iff.mpr fun name hMem => ?_
      rw [← orders.tuple.keys_eq]
      exact orders.alike.mem_keys_iff.mpr hMem
    have hValues : valuesInOrder spec.parameters m.axes.entries = .ok spec'.parameters.entries := by
      refine valuesInOrder_eq_ok_iff.mpr ⟨orders.tuple, fun entry hMem => ?_⟩
      rw [← orders.alike]
      exact Table.mem_entries_iff.mp hMem
    rw [normalize, hKnown, hValues]
    change Except.ok (Instance.mk (Table.ofList spec'.parameters.entries) spec.alwaysRun) = _
    rw [Table.ofList_entries, ← orders.alwaysRun]

theorem exists_orders_iff : (∃ spec', m.Orders spec spec') ↔ m.Declares spec.parameters := by
  constructor
  · rintro ⟨spec', orders⟩
    obtain ⟨⟨⟩, hKnown, h⟩ := ok_of_bind (normalize_eq_ok_iff.mpr orders)
    obtain ⟨entries, hValues, -⟩ := ok_of_bind h
    exact ⟨checkKnownAxes_eq_ok_iff.mp hKnown, exists_valuesInOrder_iff.mp ⟨entries, hValues⟩⟩
  · rintro ⟨hKnown, hGiven⟩
    obtain ⟨entries, hValues⟩ := exists_valuesInOrder_iff.mpr hGiven
    refine ⟨⟨Table.ofList entries, spec.alwaysRun⟩, normalize_eq_ok_iff.mp ?_⟩
    rw [normalize, checkKnownAxes_eq_ok_iff.mpr hKnown, hValues]
    rfl

theorem isInvalid_of_valueFor {axis : String} {values : List String}
    (h : valueFor p axis values = .error fault) : fault.IsInvalid := by
  unfold valueFor at h
  split at h
  · cases h
    exact ⟨_, rfl⟩
  · split at h
    · cases h
    · cases h
      exact ⟨_, rfl⟩

theorem isInvalid_of_normalize (h : m.normalize spec = .error fault) : fault.IsInvalid := by
  rcases error_of_bind h with hKnown | ⟨-, -, h⟩
  · exact isInvalid_of_checkKnownAxes hKnown
  · rcases error_of_bind h with hValues | ⟨_, -, h⟩
    · rw [valuesInOrder_eq_mapM] at hValues
      obtain ⟨axis, -, hFault⟩ := error_of_mapM hValues
      rcases error_of_bind hFault with hValue | ⟨_, -, h⟩
      · exact isInvalid_of_valueFor hValue
      · cases h
    · cases h

/-- Before instances are compared, a fault is that of the axes, of a partial tuple or of an
instance. -/
theorem error_of_kept (h : m.kept = .error fault) :
    m.checkAxes = .error fault ∨ (∃ e ∈ m.exclude, m.checkKnownAxes e = .error fault) ∨
      ∃ spec ∈ m.instances, m.normalize spec = .error fault := by
  rcases error_of_bind h with hAxes | ⟨-, -, h⟩
  · exact .inl hAxes
  · rcases error_of_bind h with hExclude | ⟨-, -, h⟩
    · exact .inr (.inl (error_of_forM hExclude))
    · rcases error_of_bind h with hAll | ⟨_, -, h⟩
      · unfold allInstances at hAll
        split at hAll
        · cases hAll
        · exact .inr (.inr (error_of_mapM hAll))
      · cases h

/-- Before instances are compared, nothing can go wrong but that the matrix is invalid. -/
theorem isInvalid_of_kept (h : m.kept = .error fault) : fault.IsInvalid := by
  rcases error_of_kept h with hAxes | ⟨e, -, hExclude⟩ | ⟨spec, -, hNormal⟩
  · exact isInvalid_of_checkAxes hAxes
  · exact isInvalid_of_checkKnownAxes hExclude
  · exact isInvalid_of_normalize hNormal

/-- A fault that lies with the value of an instance for an axis: it is not there or not one of the
axis. -/
def Fault.IsOfValue : Fault → Prop
  | .missingValue _ _ | .undeclaredValue _ _ => True
  | _ => False

theorem not_isOfValue_of_checkAxes (h : m.checkAxes = .error fault) : ¬ fault.IsOfValue := by
  unfold checkAxes at h
  split at h
  · cases h
    exact id
  · obtain ⟨axis, -, hFault⟩ := error_of_forM h
    unfold checkAxis at hFault
    split at hFault
    · cases hFault
      exact id
    · split at hFault
      · cases hFault
        exact id
      · split at hFault
        · cases hFault
          exact id
        · cases hFault

theorem not_isOfValue_of_checkKnownAxes (h : m.checkKnownAxes p = .error fault) :
    ¬ fault.IsOfValue := by
  unfold checkKnownAxes at h
  split at h
  · cases h
    exact id
  · cases h

/-- The fault of an instance that gives every axis one of its values does not lie with these. -/
theorem not_isOfValue_of_normalize
    (hGiven : ∀ axis ∈ m.axes.entries, ∃ value ∈ axis.2, spec.parameters.get? axis.1 = some value)
    (h : m.normalize spec = .error fault) : ¬ fault.IsOfValue := by
  rcases error_of_bind h with hKnown | ⟨-, -, h⟩
  · exact not_isOfValue_of_checkKnownAxes hKnown
  · obtain ⟨entries, hValues⟩ := exists_valuesInOrder_iff.mpr hGiven
    rw [hValues] at h
    cases h

theorem not_isOfValue_of_expand
    (hGiven : ∀ spec ∈ m.instances, ∀ axis ∈ m.axes.entries,
      ∃ value ∈ axis.2, spec.parameters.get? axis.1 = some value)
    (h : m.expand workflow newId = .error fault) : ¬ fault.IsOfValue := by
  rcases error_of_expand h with hKept | ⟨name, rfl⟩ | rfl
  · rcases error_of_kept hKept with hAxes | ⟨e, -, hExclude⟩ | ⟨spec, hMem, hNormal⟩
    · exact not_isOfValue_of_checkAxes hAxes
    · exact not_isOfValue_of_checkKnownAxes hExclude
    · exact not_isOfValue_of_normalize (hGiven spec hMem) hNormal
  · exact id
  · exact id

/-- The partial tuples name only axes, and every instance gives each axis one of its values. -/
def WellFormed (m : Matrix) : Prop :=
  m.KnownExcludes ∧ ∀ spec ∈ m.instances, m.Declares spec.parameters

theorem given_eq_of_orders (h : List.Forall₂ m.Orders specs all) :
    specs.map given = all.map given := by
  rw [← List.forall₂_eq_eq_eq, List.forall₂_map_left_iff, List.forall₂_map_right_iff]
  exact h.imp fun _ _ orders => (alike_iff_given_eq.mp orders.alike).symm

theorem isTuple_of_orders (h : List.Forall₂ m.Orders specs all) :
    ∀ spec ∈ all, m.IsTuple spec.parameters :=
  (forall₂_and_right.mp (h.imp fun _ _ orders => ⟨orders, orders.tuple⟩)).2

section

variable (hAxes : m.checkAxes = .ok ()) (hListed : m.instances ≠ [])

include hAxes hListed

theorem kept_eq_ok_iff_orders : m.kept = .ok specs ↔
    m.KnownExcludes ∧ ∃ all, List.Forall₂ m.Orders m.instances all ∧ m.spared all = specs := by
  have hAll : ∀ all, m.allInstances = .ok all ↔ List.Forall₂ m.Orders m.instances all := by
    intro all
    rw [allInstances, if_neg (by simpa using hListed), mapM_eq_ok_iff]
    simp only [normalize_eq_ok_iff]
  simp only [kept_eq_ok_iff, hAll, hAxes, true_and]

theorem exists_kept_iff : (∃ specs, m.kept = .ok specs) ↔ m.WellFormed := by
  constructor
  · rintro ⟨specs, hKept⟩
    obtain ⟨hKnown, all, hOrders, -⟩ := (kept_eq_ok_iff_orders hAxes hListed).mp hKept
    refine ⟨hKnown, fun spec hMem => ?_⟩
    obtain ⟨spec', -, orders⟩ := exists_mem_of_forall₂ hOrders hMem
    exact exists_orders_iff.mp ⟨spec', orders⟩
  · rintro ⟨hKnown, hAll⟩
    have hEach : ∀ spec ∈ m.instances, ∃ spec', m.normalize spec = .ok spec' := by
      intro spec hMem
      obtain ⟨spec', orders⟩ := exists_orders_iff.mpr (hAll spec hMem)
      exact ⟨spec', normalize_eq_ok_iff.mpr orders⟩
    obtain ⟨all, hNormal⟩ := exists_mapM_eq_ok_iff.mpr hEach
    have hOrders : List.Forall₂ m.Orders m.instances all :=
      (mapM_eq_ok_iff.mp hNormal).imp fun _ _ => normalize_eq_ok_iff.mp
    exact ⟨_, (kept_eq_ok_iff_orders hAxes hListed).mpr ⟨hKnown, all, hOrders, rfl⟩⟩

/-- What is kept are the instances that are not left out, in order. -/
theorem orders_of_kept (h : m.kept = .ok specs) :
    List.Forall₂ m.Orders (m.spared m.instances) specs := by
  obtain ⟨-, all, hOrders, rfl⟩ := (kept_eq_ok_iff_orders hAxes hListed).mp h
  refine List.rel_filter (fun spec spec' orders => ?_) hOrders
  change decide _ = true ↔ decide _ = true
  rw [decide_eq_true_eq, decide_eq_true_eq]
  exact not_congr ⟨fun drops => drops.of_alike orders.alike.symm,
    fun drops => drops.of_alike orders.alike⟩

theorem firstDuplicate?_kept_eq_none_iff (h : m.kept = .ok specs) :
    firstDuplicate? [] specs = none ↔ Distinct (m.spared m.instances) := by
  have hOrders := orders_of_kept hAxes hListed h
  have hTuple := isTuple_of_orders hOrders
  rw [firstDuplicate?_nil_eq_none_iff fun spec hMem => (hTuple spec hMem).keys_eq]
  exact distinct_congr (given_eq_of_orders hOrders).symm

theorem exists_isFirstRepeat_of_kept (h : m.kept = .ok specs)
    (hRepeat : firstDuplicate? [] specs = some spec') :
    m.IsTuple spec'.parameters ∧ ∃ spec, IsFirstRepeat (m.spared m.instances) spec ∧
      spec'.parameters.Alike spec.parameters := by
  have hOrders := orders_of_kept hAxes hListed h
  have hTuple := isTuple_of_orders hOrders
  have first : IsFirstRepeat specs spec' :=
    isFirstRepeat_of_firstDuplicate? (fun spec hMem => (hTuple spec hMem).keys_eq) hRepeat
  exact ⟨hTuple spec' first.mem, first.of_given_eq (given_eq_of_orders hOrders)⟩

theorem kept_eq_nil_iff (h : m.kept = .ok specs) : specs = [] ↔ m.spared m.instances = [] := by
  have hLength := (orders_of_kept hAxes hListed h).length_eq
  rw [← List.length_eq_zero_iff, ← List.length_eq_zero_iff, hLength]

theorem exists_expand_iff : (∃ expansion, m.expand workflow newId = .ok expansion) ↔
    m.WellFormed ∧ Distinct (m.spared m.instances) ∧ m.spared m.instances ≠ [] := by
  constructor
  · rintro ⟨expansion, h⟩
    obtain ⟨specs, hKept, hNone, hSome, -⟩ := exists_kept_of_expand h
    exact ⟨(exists_kept_iff hAxes hListed).mp ⟨specs, hKept⟩,
      (firstDuplicate?_kept_eq_none_iff hAxes hListed hKept).mp hNone,
      mt (kept_eq_nil_iff hAxes hListed hKept).mpr hSome⟩
  · rintro ⟨wellFormed, distinct, hSome⟩
    obtain ⟨specs, hKept⟩ := (exists_kept_iff hAxes hListed).mpr wellFormed
    exact ⟨_, expand_of_distinct hKept
      ((firstDuplicate?_kept_eq_none_iff hAxes hListed hKept).mpr distinct)
      (mt (kept_eq_nil_iff hAxes hListed hKept).mp hSome)⟩

theorem orders_of_expand {expansion : Expansion} (h : m.expand workflow newId = .ok expansion) :
    List.Forall₂ (fun spec job => m.Orders spec job.spec) (m.spared m.instances)
      expansion.jobs := by
  obtain ⟨specs, hKept, -, -, rfl⟩ := exists_kept_of_expand h
  have hOrders := orders_of_kept hAxes hListed hKept
  rwa [← specs_numbered workflow newId specs, List.forall₂_map_right_iff] at hOrders

theorem expand_of_malformed (malformed : ¬ m.WellFormed) :
    ∃ fault detail, m.expand workflow newId = .error fault ∧
      fault.toError = .invalidMatrix detail := by
  cases hKept : m.kept with
  | ok specs => exact absurd ((exists_kept_iff hAxes hListed).mp ⟨specs, hKept⟩) malformed
  | error fault =>
      obtain ⟨detail, hDetail⟩ := isInvalid_of_kept hKept
      exact ⟨fault, detail, expand_of_fault hKept, hDetail⟩

/-- The first instance that repeats an earlier one is at fault, under the name of its job. -/
theorem expand_of_not_distinct (wellFormed : m.WellFormed)
    (hRepeat : ¬ Distinct (m.spared m.instances)) :
    ∃ fault spec p, IsFirstRepeat (m.spared m.instances) spec ∧ m.IsTuple p ∧
      p.Alike spec.parameters ∧ m.expand workflow newId = .error fault ∧
      fault.toError = .duplicateInstance (jobName workflow p) := by
  obtain ⟨specs, hKept⟩ := (exists_kept_iff hAxes hListed).mpr wellFormed
  cases hSearch : firstDuplicate? [] specs with
  | none =>
      have distinct := (firstDuplicate?_kept_eq_none_iff hAxes hListed hKept).mp hSearch
      exact absurd distinct hRepeat
  | some spec' =>
      obtain ⟨tuple, spec, first, hAlike⟩ :=
        exists_isFirstRepeat_of_kept hAxes hListed hKept hSearch
      exact ⟨_, spec, spec'.parameters, first, tuple, hAlike, expand_of_repeat hKept hSearch, rfl⟩

theorem expand_of_spared_nil (wellFormed : m.WellFormed) (hNone : m.spared m.instances = []) :
    ∃ fault, m.expand workflow newId = .error fault ∧
      fault.toError = .invalidMatrix "matrix expands to zero jobs" := by
  obtain ⟨specs, hKept⟩ := (exists_kept_iff hAxes hListed).mpr wellFormed
  exact ⟨_, expand_of_nil hKept ((kept_eq_nil_iff hAxes hListed hKept).mpr hNone), rfl⟩

end

/-- The same instance, perhaps with its names in another order. -/
def Reorders (spec spec' : Instance) : Prop :=
  spec.parameters.entries.Perm spec'.parameters.entries ∧ spec.alwaysRun = spec'.alwaysRun

theorem Reorders.orders_iff {other : Instance} (reorders : Reorders spec other)
    (hAxes : m'.axes = m.axes) : m'.Orders spec spec' ↔ m.Orders other spec' := by
  have hAlike := Table.alike_of_perm reorders.1
  have hTuple : m'.IsTuple spec'.parameters ↔ m.IsTuple spec'.parameters := by
    rw [IsTuple, IsTuple, hAxes]
  constructor
  · intro orders
    exact ⟨hTuple.mp orders.tuple, orders.alike.trans hAlike, orders.alwaysRun.trans reorders.2⟩
  · intro orders
    exact ⟨hTuple.mpr orders.tuple, orders.alike.trans hAlike.symm,
      orders.alwaysRun.trans reorders.2.symm⟩

theorem forall₂_orders_iff {others : List Instance} (h : List.Forall₂ Reorders specs others)
    (hAxes : m'.axes = m.axes) :
    List.Forall₂ m'.Orders specs all ↔ List.Forall₂ m.Orders others all := by
  induction h generalizing all with
  | nil => simp only [List.forall₂_nil_left_iff]
  | cons reorders _ ih => simp only [List.forall₂_cons_left_iff, reorders.orders_iff hAxes, ih]

/-- The names of instances and of partial tuples may be written in any order. -/
theorem toOption_expand_of_reorders (hAxes : m.checkAxes = .ok ()) (hListed : m.instances ≠ [])
    (hSame : m'.axes = m.axes) (hLimit : m'.maxParallel = m.maxParallel)
    (hInstances : List.Forall₂ Reorders m'.instances m.instances)
    (hExclude : List.Forall₂ (fun e e' : Parameters => e.entries.Perm e'.entries) m'.exclude
      m.exclude) :
    (m'.expand workflow newId).toOption = (m.expand workflow newId).toOption := by
  have hAxes' : m'.checkAxes = .ok () := by
    rw [checkAxes, hSame]
    exact hAxes
  have hListed' : m'.instances ≠ [] := by
    intro hNil
    rw [hNil, List.forall₂_nil_left_iff] at hInstances
    exact hListed hInstances
  have within : m'.ExcludesWithin m := by
    intro e hMem _
    obtain ⟨e', hMem', hPerm⟩ := exists_mem_of_forall₂ hExclude hMem
    exact ⟨e', hMem', Table.alike_of_perm hPerm⟩
  have within' : m.ExcludesWithin m' := by
    intro e hMem _
    have hFlip : List.Forall₂ (fun e e' : Parameters => e.entries.Perm e'.entries) m.exclude
        m'.exclude := (hExclude.imp fun _ _ hPerm => hPerm.symm).flip
    obtain ⟨e', hMem', hPerm⟩ := exists_mem_of_forall₂ hFlip hMem
    exact ⟨e', hMem', Table.alike_of_perm hPerm⟩
  have hKnown : m'.KnownExcludes ↔ m.KnownExcludes :=
    ⟨fun known => known.anti hSame within', fun known => known.anti hSame.symm within⟩
  -- what is kept goes by the value of each name, so a rewritten matrix keeps the same instances
  refine toOption_expand_congr (fun specs => ?_) hLimit
  simp only [kept_eq_ok_iff_orders hAxes hListed, kept_eq_ok_iff_orders hAxes' hListed', hKnown,
    forall₂_orders_iff hInstances hSame, spared_congr within within']

/-- Where jobs are asked for by name, a matrix expands exactly if its partial tuples and all of its
instances are well formed and the instances that are not left out differ and are there at all. They
are then the jobs, in the order in which they are asked for, each with its values in the order of
the axes. If something is not well formed, the matrix is invalid, whatever is repeated; otherwise
the first instance that repeats an earlier one is at fault, or that nothing is left. In what order
names are written plays no part. -/
theorem instances_become_jobs (hAxes : m.checkAxes = .ok ()) (hListed : m.instances ≠ [])
    (workflow : String) (newId : Nat → JobId) :
    ((∃ expansion, m.expand workflow newId = .ok expansion) ↔
      m.WellFormed ∧ Distinct (m.spared m.instances) ∧ m.spared m.instances ≠ []) ∧
    (∀ expansion, m.expand workflow newId = .ok expansion →
      List.Forall₂ (fun spec job => m.Orders spec job.spec) (m.spared m.instances)
        expansion.jobs ∧
      expansion.jobs.map (·.index) = List.range expansion.jobs.length) ∧
    (¬ m.WellFormed → ∃ fault detail, m.expand workflow newId = .error fault ∧
      fault.toError = .invalidMatrix detail) ∧
    (m.WellFormed → ¬ Distinct (m.spared m.instances) → ∃ fault spec p,
      IsFirstRepeat (m.spared m.instances) spec ∧ m.IsTuple p ∧ p.Alike spec.parameters ∧
      m.expand workflow newId = .error fault ∧
      fault.toError = .duplicateInstance (jobName workflow p)) ∧
    (m.WellFormed → m.spared m.instances = [] → ∃ fault,
      m.expand workflow newId = .error fault ∧
      fault.toError = .invalidMatrix "matrix expands to zero jobs") ∧
    ∀ (instances : List Instance) (exclude : List Parameters),
      List.Forall₂ Reorders instances m.instances →
      List.Forall₂ (fun e e' : Parameters => e.entries.Perm e'.entries) exclude m.exclude →
      ({ m with instances := instances, exclude := exclude }.expand workflow newId).toOption =
        (m.expand workflow newId).toOption := by
  refine ⟨exists_expand_iff hAxes hListed, fun expansion h => ?_, expand_of_malformed hAxes hListed,
    expand_of_not_distinct hAxes hListed, expand_of_spared_nil hAxes hListed, ?_⟩
  · exact ⟨orders_of_expand hAxes hListed h, indices_of_expand h⟩
  · intro instances exclude hInstances hExclude
    exact toOption_expand_of_reorders hAxes hListed rfl rfl hInstances hExclude

/-- Three jobs asked for, one with its values in another order and one that is left out. -/
def sampleListing : Matrix where
  axes := Table.ofList [("os", ["linux", "macos"]), ("task", ["lint", "test"])]
  instances := [⟨Table.ofList [("task", "test"), ("os", "macos")], true⟩,
    ⟨Table.ofList [("os", "linux"), ("task", "lint")], false⟩,
    ⟨Table.ofList [("os", "linux"), ("task", "test")], false⟩]
  exclude := [Table.ofList [("task", "lint")]]

theorem sample_instances_expanded :
    sampleListing.checkAxes = .ok () ∧ sampleListing.instances ≠ [] ∧
    ∃ expansion, sampleListing.expand "ci" (fun i => ⟨Uuid.ofNat i⟩) = .ok expansion ∧
      expansion.jobs.map (·.name) = ["ci (os=macos, task=test)", "ci (os=linux, task=test)"] ∧
      sampleListing.WellFormed ∧ Distinct (sampleListing.spared sampleListing.instances) := by
  have hAxes : sampleListing.checkAxes = .ok () := by decide +kernel
  have hListed : sampleListing.instances ≠ [] := by decide +kernel
  obtain ⟨hIff, -⟩ := instances_become_jobs hAxes hListed "ci" (fun i => ⟨Uuid.ofNat i⟩)
  obtain ⟨wellFormed, distinct, -⟩ := hIff.mp ⟨_, rfl⟩
  exact ⟨hAxes, hListed, _, rfl, by decide +kernel, wellFormed, distinct⟩

end Matrix

end ChangeGate
