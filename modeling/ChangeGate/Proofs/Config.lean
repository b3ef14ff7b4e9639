import ChangeGate.Config

/-! Changing a configuration one setting at a time. Setting a key replaces what the configuration
has for it and nothing else; whether a value is taken for a key does not hang on the configuration.
-/

namespace ChangeGate.Config

variable {c c' : Config} {key value : String} {fault : Fault}

/-- One configuration has the value of a key in the place of what another has for it, and is the
same otherwise. -/
inductive Replaces (c : Config) : String → String → Config → Prop where
  | workspace (value : String) : Replaces c "workspace" value { c with workspace := some value }
  | storeDir (value : String) : Replaces c "store_dir" value { c with storeDir := some value }
  | maxParallel {value : String} {n : Nat} (hSize : sizeOfText? value = some n) (hPos : n ≠ 0) :
      Replaces c "max_parallel" value { c with maxParallel := some n }
  | outputFormat {value : String} {format : OutputFormat}
      (hFormat : OutputFormat.known.lookup value = some format) :
      Replaces c "output_format" value { c with outputFormat := format }

/-- The keys of the settings. -/
def keys : List String := ["workspace", "store_dir", "max_parallel", "output_format"]

/-- Why a value is not taken for a key. -/
inductive Rejects : String → String → Fault → Prop where
  | noSize {value : String} (h : sizeOfText? value = none) :
      Rejects "max_parallel" value (.invalidParallelism value)
  | zero {value : String} (h : sizeOfText? value = some 0) :
      Rejects "max_parallel" value .noParallelism
  | noFormat {value : String} (h : OutputFormat.known.lookup value = none) :
      Rejects "output_format" value (.invalidFormat value)
  | noKey {key value : String} (h : key ∉ keys) : Rejects key value (.unknownKey key)

theorem set_eq_ok_iff : c.set key value = .ok c' ↔ Replaces c key value c' := by
  constructor
  · intro h
    unfold set at h
    split at h
    · cases h; exact .workspace value
    · cases h; exact .storeDir value
    · split at h
      · cases h
      · cases h
      · next n hZero hSize => cases h; exact .maxParallel hSize hZero
    · split at h
      · next format hFormat => cases h; exact .outputFormat hFormat
      · cases h
    · cases h
  · rintro (_ | _ | ⟨hSize, hPos⟩ | hFormat)
    · rfl
    · rfl
    · simp only [set, hSize]
    · simp only [set, hFormat]

theorem set_eq_error_iff : c.set key value = .error fault ↔ Rejects key value fault := by
  constructor
  · intro h
    unfold set at h
    split at h
    · cases h
    · cases h
    · split at h
      · next hSize => cases h; exact .noSize hSize
      · next hSize => cases h; exact .zero hSize
      · cases h
    · split at h
      · cases h
      · next hFormat => cases h; exact .noFormat hFormat
    · next hWorkspace hStore hParallel hOutput =>
        cases h
        refine .noKey fun hMem => ?_
        simp only [keys, List.mem_cons, List.not_mem_nil, or_false] at hMem
        rcases hMem with h | h | h | h
        · exact hWorkspace h
        · exact hStore h
        · exact hParallel h
        · exact hOutput h
  · rintro (hSize | hSize | hFormat | hKey)
    · simp only [set, hSize]
    · simp only [set, hSize]
    · simp only [set, hFormat]
    · simp only [keys, List.mem_cons, List.not_mem_nil, or_false, not_or] at hKey
      simp [set, hKey]

/-- A value that is taken for a key is not rejected, for whatever reason. -/
theorem Replaces.not_rejects (replaces : Replaces c key value c') :
    ¬ Rejects key value fault := fun rejects => by
  cases (set_eq_ok_iff.mpr replaces).symm.trans (set_eq_error_iff.mpr rejects)

theorem Replaces.unique {c'' : Config} (replaces : Replaces c key value c')
    (other : Replaces c key value c'') : c' = c'' :=
  Except.ok.inj ((set_eq_ok_iff.mpr replaces).symm.trans (set_eq_ok_iff.mpr other))

theorem Rejects.unique {fault' : Fault} (rejects : Rejects key value fault)
    (other : Rejects key value fault') : fault = fault' := by
  have hFirst : Config.set {} key value = .error fault := set_eq_error_iff.mpr rejects
  exact Except.error.inj (hFirst.symm.trans (set_eq_error_iff.mpr other))

/-- The last value of a key among settings, if it has one. -/
def lastOf (sets : List (String × String)) (key : String) : Option String :=
  sets.reverse.lookup key

/-- The configuration that has the last value of each key among settings, and the usual one where
there is none. -/
def ofSets (sets : List (String × String)) : Config where
  workspace := lastOf sets "workspace"
  storeDir := lastOf sets "store_dir"
  maxParallel := (lastOf sets "max_parallel").bind sizeOfText?
  outputFormat :=
    ((lastOf sets "output_format").bind fun value => OutputFormat.known.lookup value).getD .table

/-- One setting more replaces what was last set for its key. -/
theorem Replaces.eq_ofSets {sets : List (String × String)}
    (replaces : Replaces (ofSets sets) key value c) : c = ofSets (sets ++ [(key, value)]) := by
  cases replaces with
  | workspace => simp [ofSets, lastOf, List.lookup_cons]
  | storeDir => simp [ofSets, lastOf, List.lookup_cons]
  | maxParallel hSize => simp [ofSets, lastOf, List.lookup_cons, hSize]
  | outputFormat hFormat => simp [ofSets, lastOf, List.lookup_cons, hFormat]

end ChangeGate.Config
