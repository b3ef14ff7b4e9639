/-!
Tables from names to values that keep the order in which names were first given. Inserting a name
again replaces its value and leaves its place.
-/

namespace ChangeGate

/-- A table from names to values. No name occurs twice. -/
structure Table (α : Type) where
  entries : List (String × α)
  nodup_keys : (entries.map Prod.fst).Nodup
deriving DecidableEq, Repr

namespace Table

variable {α : Type}

def keys (t : Table α) : List String := t.entries.map Prod.fst

def values (t : Table α) : List α := t.entries.map Prod.snd

def size (t : Table α) : Nat := t.entries.length

def isEmpty (t : Table α) : Bool := t.entries.isEmpty

def empty : Table α := ⟨[], List.nodup_nil⟩

instance : EmptyCollection (Table α) := ⟨empty⟩
instance : Inhabited (Table α) := ⟨empty⟩

def get? (t : Table α) (name : String) : Option α := t.entries.lookup name

def contains (t : Table α) (name : String) : Bool := (t.get? name).isSome

/-- The entries after `name` is given `value`: in its place if it has one, else at the end. -/
def put (name : String) (value : α) : List (String × α) → List (String × α)
  | [] => [(name, value)]
  | (k, v) :: rest => if k = name then (k, value) :: rest else (k, v) :: put name value rest

theorem map_fst_put (name : String) (value : α) (l : List (String × α)) :
    (put name value l).map Prod.fst =
      if name ∈ l.map Prod.fst then l.map Prod.fst else l.map Prod.fst ++ [name] := by
  induction l with
  | nil => simp [put]
  | cons e l ih =>
    obtain ⟨k, v⟩ := e
    simp only [put]
    split
    · next h => simp [h]
    · next h =>
      have hne : ¬ name = k := fun e => h e.symm
      by_cases hm : name ∈ l.map Prod.fst
      · rw [if_pos hm] at ih
        rw [if_pos (by simp only [List.map_cons, List.mem_cons]; exact Or.inr hm)]
        simp only [List.map_cons, ih]
      · rw [if_neg hm] at ih
        rw [if_neg (by simp only [List.map_cons, List.mem_cons, not_or]; exact ⟨hne, hm⟩)]
        simp only [List.map_cons, ih, List.cons_append]

def insert (t : Table α) (name : String) (value : α) : Table α where
  entries := put name value t.entries
  nodup_keys := by
    rw [map_fst_put]
    have h := t.nodup_keys
    split
    · exact h
    · next hm =>
      rw [List.nodup_append]
      refine ⟨h, by simp, ?_⟩
      intro a ha b hb
      simp only [List.mem_singleton] at hb
      rintro rfl
      exact hm (hb ▸ ha)

def insertAll (t : Table α) (entries : List (String × α)) : Table α :=
  entries.foldl (fun t e => t.insert e.1 e.2) t

/-- The table of the entries, inserted in order. -/
def ofList (entries : List (String × α)) : Table α :=
  empty.insertAll entries

def map {β : Type} (f : α → β) (t : Table α) : Table β where
  entries := t.entries.map fun e => (e.1, f e.2)
  nodup_keys := by
    have : (t.entries.map fun e => (e.1, f e.2)).map Prod.fst = t.entries.map Prod.fst := by
      simp [Function.comp_def]
    rw [this]
    exact t.nodup_keys

def erase (t : Table α) (name : String) : Table α where
  entries := t.entries.filter (·.1 ≠ name)
  nodup_keys := t.nodup_keys.sublist (List.filter_sublist.map Prod.fst)

/-- The entries whose names pass a test. -/
def filterKeys (t : Table α) (keep : String → Bool) : Table α where
  entries := t.entries.filter (keep ·.1)
  nodup_keys := t.nodup_keys.sublist (List.filter_sublist.map Prod.fst)

/-- Whether two tables give every name the same value, whatever their order. -/
def sameEntries [DecidableEq α] (s t : Table α) : Bool :=
  s.size == t.size && s.entries.all fun e => t.get? e.1 == some e.2

theorem lookup_put_self (name : String) (value : α) (l : List (String × α)) :
    (put name value l).lookup name = some value := by
  induction l with
  | nil => simp [put]
  | cons e l ih =>
    obtain ⟨k, v⟩ := e
    simp only [put]
    split
    · next h => simp [h]
    · next h =>
      have : (name == k) = false := by simpa using fun e => h e.symm
      simp [List.lookup_cons, this, ih]

theorem lookup_put_of_ne {name other : String} (value : α) (l : List (String × α))
    (h : other ≠ name) : (put name value l).lookup other = l.lookup other := by
  induction l with
  | nil =>
    have : (other == name) = false := by simpa using h
    simp [put, List.lookup_cons, this]
  | cons e l ih =>
    obtain ⟨k, v⟩ := e
    simp only [put]
    split
    · next hk =>
      have : (other == k) = false := by simpa [hk] using h
      simp [List.lookup_cons, this]
    · simp [List.lookup_cons, ih]

@[simp] theorem get?_empty (name : String) : (empty : Table α).get? name = none := rfl

@[simp] theorem get?_insert_self (t : Table α) (name : String) (value : α) :
    (t.insert name value).get? name = some value :=
  lookup_put_self name value t.entries

theorem get?_insert_of_ne (t : Table α) {name other : String} (value : α) (h : other ≠ name) :
    (t.insert name value).get? other = t.get? other :=
  lookup_put_of_ne value t.entries h

/-- Inserting a name that has a value keeps the names, and a new one comes last. -/
theorem keys_insert (t : Table α) (name : String) (value : α) :
    (t.insert name value).keys = if name ∈ t.keys then t.keys else t.keys ++ [name] :=
  map_fst_put name value t.entries

theorem lookup_filter_self (name : String) (l : List (String × α)) :
    (l.filter (·.1 ≠ name)).lookup name = none := by
  simp only [List.lookup_eq_none_iff, List.mem_filter]
  rintro e ⟨-, h⟩
  simpa using fun h' => (by simpa using h : e.1 ≠ name) h'.symm

theorem lookup_filter_of_ne {name other : String} (h : other ≠ name) (l : List (String × α)) :
    (l.filter (·.1 ≠ name)).lookup other = l.lookup other := by
  induction l with
  | nil => rfl
  | cons e l ih =>
    obtain ⟨k, v⟩ := e
    by_cases hk : k = name
    · have hb : (other == k) = false := by simpa [hk] using h
      rw [List.filter_cons_of_neg (by simp [hk]), ih, List.lookup_cons, hb]
    · rw [List.filter_cons_of_pos (by simp [hk]), List.lookup_cons, List.lookup_cons, ih]

@[simp] theorem get?_erase_self (t : Table α) (name : String) :
    (t.erase name).get? name = none :=
  lookup_filter_self name t.entries

theorem get?_erase_of_ne (t : Table α) {name other : String} (h : other ≠ name) :
    (t.erase name).get? other = t.get? other :=
  lookup_filter_of_ne h t.entries

theorem get?_filterKeys_of_neg (t : Table α) {keep : String → Bool} {name : String}
    (h : keep name = false) : (t.filterKeys keep).get? name = none := by
  simp only [get?, filterKeys, List.lookup_eq_none_iff, List.mem_filter]
  rintro e ⟨-, hKeep⟩
  have hNe : name ≠ e.1 := fun hName => by
    rw [← hName, h] at hKeep
    cases hKeep
  simpa using hNe

theorem get?_filterKeys_of_pos (t : Table α) {keep : String → Bool} {name : String}
    (h : keep name = true) : (t.filterKeys keep).get? name = t.get? name := by
  simp only [get?, filterKeys]
  induction t.entries with
  | nil => rfl
  | cons e rest ih =>
    obtain ⟨k, v⟩ := e
    by_cases hKeep : keep k = true
    · rw [List.filter_cons_of_pos (by simpa using hKeep), List.lookup_cons, List.lookup_cons, ih]
    · have hName : (name == k) = false := by
        simpa using fun hName : name = k => hKeep (hName ▸ h)
      rw [List.filter_cons_of_neg (by simpa using hKeep), ih, List.lookup_cons, hName]

end Table

end ChangeGate
