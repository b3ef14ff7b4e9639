import Mathlib.Data.List.Induction
import Mathlib.Data.List.Nodup
import Mathlib.Data.List.Perm.Basic
import ChangeGate.Table

/-! What tables give their names. A table is settled by its names, in order, and by the value that
it gives each of them; two tables that give every name the same value differ at most in order. -/

namespace ChangeGate.Table

variable {α : Type} {s s' t t' : Table α} {name : String} {value : α}

theorem eq_of_entries (h : s.entries = t.entries) : s = t := by
  cases s
  cases t
  simpa using h

/-- Where no name occurs twice, an entry is what its name is looked up as. -/
theorem mem_iff_lookup {κ : Type} [DecidableEq κ] {entries : List (κ × α)} {key : κ}
    (hNodup : (entries.map Prod.fst).Nodup) :
    (key, value) ∈ entries ↔ entries.lookup key = some value := by
  induction entries with
  | nil => simp
  | cons entry rest ih =>
      obtain ⟨k, v⟩ := entry
      obtain ⟨hFirst, hRest⟩ := List.nodup_cons.mp hNodup
      by_cases hName : key = k
      · subst hName
        have hNew : (key, value) ∉ rest := fun hMem => hFirst (List.mem_map.mpr ⟨_, hMem, rfl⟩)
        simp [hNew, eq_comm]
      · have hNot : (key == k) = false := beq_eq_false_iff_ne.mpr hName
        simp [List.lookup_cons, hNot, hName, ih hRest]

theorem mem_entries_iff : (name, value) ∈ t.entries ↔ t.get? name = some value :=
  mem_iff_lookup t.nodup_keys

theorem mem_keys_iff : name ∈ t.keys ↔ ∃ value, t.get? name = some value := by
  simp [keys, ← mem_entries_iff]

theorem contains_iff : t.contains name = true ↔ name ∈ t.keys := by
  rw [contains, Option.isSome_iff_exists, mem_keys_iff]

/-- Two tables give every name the same value, in whatever order they have their names. -/
def Alike (s t : Table α) : Prop := ∀ name, s.get? name = t.get? name

theorem Alike.refl (t : Table α) : t.Alike t := fun _ => rfl

theorem Alike.symm (h : s.Alike t) : t.Alike s := fun name => (h name).symm

theorem Alike.trans {u : Table α} (h : s.Alike t) (h' : t.Alike u) : s.Alike u :=
  fun name => (h name).trans (h' name)

theorem alike_of_perm (h : s.entries.Perm t.entries) : s.Alike t := by
  intro name
  apply Option.ext
  intro value
  rw [← mem_entries_iff, ← mem_entries_iff, h.mem_iff]

theorem Alike.mem_keys_iff (h : s.Alike t) : name ∈ s.keys ↔ name ∈ t.keys := by
  rw [Table.mem_keys_iff, Table.mem_keys_iff, h name]

/-- A table is settled by its names in order and the value of each. -/
theorem eq_of_alike (hKeys : s.keys = t.keys) (h : s.Alike t) : s = t := by
  have hEntries : ∀ (u : Table α), u.entries.map some =
      u.keys.map fun name => (u.get? name).map (name, ·) := by
    intro u
    rw [keys, List.map_map]
    refine List.map_congr_left fun entry hMem => ?_
    simp [mem_entries_iff.mp hMem]
  have hSame : s.entries.map some = t.entries.map some := by
    rw [hEntries s, hEntries t, hKeys]
    exact List.map_congr_left fun name _ => by rw [h name]
  exact eq_of_entries ((List.map_inj_right fun _ _ => Option.some.inj).mp hSame)

/-- A table is settled by its names and its values, both in order. -/
theorem eq_of_values (hKeys : s.keys = t.keys) (hValues : s.values = t.values) : s = t := by
  have hZip : ∀ u : Table α, u.entries = u.keys.zip u.values :=
    fun u => List.zip_of_prod rfl rfl
  exact eq_of_entries (by rw [hZip s, hZip t, hKeys, hValues])

/-- A table gives every name of another the value that it has there. -/
def Includes (t part : Table α) : Prop :=
  ∀ name value, part.get? name = some value → t.get? name = some value

theorem Alike.includes_iff (hWhole : s.Alike s') (hPart : t.Alike t') :
    s.Includes t ↔ s'.Includes t' := by
  unfold Includes
  simp only [hWhole _, hPart _]

/-- A table that gives another's names no other value, and has no other names, is like it. -/
theorem alike_of_includes (h : t.Includes s) (hKeys : ∀ name ∈ t.keys, name ∈ s.keys) :
    s.Alike t := by
  intro name
  cases hValue : s.get? name with
  | some value => exact (h name value hValue).symm
  | none =>
      by_contra hOther
      obtain ⟨value, hGiven⟩ := Option.ne_none_iff_exists'.mp (Ne.symm hOther)
      obtain ⟨value', hOwn⟩ := mem_keys_iff.mp (hKeys name (mem_keys_iff.mpr ⟨value, hGiven⟩))
      rw [hValue] at hOwn
      cases hOwn

theorem put_of_notMem {entries : List (String × α)} (h : name ∉ entries.map Prod.fst) :
    put name value entries = entries ++ [(name, value)] := by
  induction entries with
  | nil => rfl
  | cons entry rest ih =>
      rw [List.map_cons, List.mem_cons, not_or] at h
      rw [put, if_neg (Ne.symm h.1), ih h.2, List.cons_append]

/-- Of the entries that are put into a table in order, the last with a name settles it. -/
theorem get?_insertAll (t : Table α) (entries : List (String × α)) (name : String) :
    (t.insertAll entries).get? name = (entries.reverse.lookup name).or (t.get? name) := by
  induction entries generalizing t with
  | nil => rfl
  | cons entry rest ih =>
      obtain ⟨k, v⟩ := entry
      have hInsert : (t.insert k v).get? name = ([(k, v)].lookup name).or (t.get? name) := by
        by_cases hName : name = k
        · simp [hName]
        · have hNot : (name == k) = false := beq_eq_false_iff_ne.mpr hName
          simp [get?_insert_of_ne t v hName, List.lookup_cons, hNot]
      rw [insertAll, List.foldl_cons, ← insertAll, ih, hInsert, List.reverse_cons,
        List.lookup_append, Option.or_assoc]

/-- A table gives a name the last value that its entries give it. -/
theorem get?_ofList (entries : List (String × α)) (name : String) :
    (ofList entries).get? name = ((entries.filter (·.1 = name)).map Prod.snd).getLast? := by
  rw [ofList, get?_insertAll, get?_empty, Option.or_none]
  induction entries using List.reverseRecOn with
  | nil => rfl
  | append_singleton rest entry ih =>
      obtain ⟨k, v⟩ := entry
      rw [List.reverse_append, List.reverse_singleton, List.singleton_append, List.filter_append]
      by_cases hName : k = name
      · simp [hName]
      · have hNot : (name == k) = false := beq_eq_false_iff_ne.mpr (Ne.symm hName)
        simp [List.lookup_cons, hNot, hName, ih]

/-- Where no name occurs twice, it does not matter from which end a name is looked up. -/
theorem lookup_reverse {entries : List (String × α)} (hNodup : (entries.map Prod.fst).Nodup) :
    entries.reverse.lookup name = entries.lookup name := by
  have hReverse : (entries.reverse.map Prod.fst).Nodup := by
    rw [List.map_reverse]
    exact List.nodup_reverse.mpr hNodup
  apply Option.ext
  intro value
  rw [← mem_iff_lookup hReverse, ← mem_iff_lookup hNodup, List.mem_reverse]

/-- Where one table is put into another, its values go before those of the other. -/
theorem get?_insertAll_entries (s t : Table α) (name : String) :
    (t.insertAll s.entries).get? name = (s.get? name).or (t.get? name) := by
  rw [get?_insertAll, lookup_reverse s.nodup_keys, get?, get?]

theorem mem_keys_insertAll {entries : List (String × α)} :
    name ∈ (t.insertAll entries).keys ↔ name ∈ entries.map Prod.fst ∨ name ∈ t.keys := by
  rw [← contains_iff, ← contains_iff, contains, contains, get?_insertAll, Option.isSome_or,
    Bool.or_eq_true, List.lookup_isSome_iff, List.mem_map]
  simp only [List.mem_reverse, beq_iff_eq, eq_comm (a := name)]

/-- Entries whose names differ are the entries of their table. -/
theorem entries_ofList {entries : List (String × α)} (h : (entries.map Prod.fst).Nodup) :
    (ofList entries).entries = entries := by
  -- by induction on the entries still to be inserted
  have hAll : ∀ (t : Table α) (rest : List (String × α)),
      ((t.entries ++ rest).map Prod.fst).Nodup →
        (t.insertAll rest).entries = t.entries ++ rest := by
    intro t rest
    induction rest generalizing t with
    | nil => simp [insertAll]
    | cons entry rest ih =>
        intro hNodup
        have hNew : entry.1 ∉ t.entries.map Prod.fst := by
          intro hMem
          rw [List.map_append, List.nodup_append] at hNodup
          exact hNodup.2.2 _ hMem _ (List.mem_cons_self) rfl
        have hInsert : (t.insert entry.1 entry.2).entries = t.entries ++ [entry] :=
          put_of_notMem hNew
        have hRest := ih (t.insert entry.1 entry.2) (by simpa [hInsert] using hNodup)
        rw [hInsert, List.append_assoc] at hRest
        exact hRest
  exact hAll empty entries (by simpa [empty] using h)

theorem ofList_entries (t : Table α) : ofList t.entries = t :=
  eq_of_entries (entries_ofList t.nodup_keys)

end ChangeGate.Table
