import ChangeGate.Form.Workflow
import ChangeGate.Proofs.Yaml.Reader

/-! Jobs asked for, as mappings. Each entry that names an axis gives it the text of a scalar, and no
axis may be named twice; the name set apart gives the flag. What is read can be written, and what is
written is read back. -/

namespace ChangeGate

open Yaml Yaml.Reader

/-- A node has an atom as its value: a text is any scalar with that content, a truth value is a word
for it that is not in quotes. -/
inductive Yaml.Atom.Carried : Atom → Node → Prop where
  | text (p : Properties) (s : String) (style : Style) : Carried (.text s) (.scalar p s style)
  | bool (p : Properties) {s : String} {b : Bool} (hWord : truth? s = some b) :
      Carried (.bool b) (.scalar p s .plain)

/-- A pair of nodes has the name and the value of an entry. -/
def Yaml.Atom.EntryCarried (nodes : Node × Node) (entry : String × Atom) : Prop :=
  Carried (.text entry.1) nodes.1 ∧ Carried entry.2 nodes.2

namespace Instance

variable {doc : Document} {path : Path} {spec spec' : Instance} {k v node : Node}
  {left left' : Nat} {entries nodes : List (Node × Node)}

/-- An entry sets the flag, or it gives a value to an axis that has none yet. -/
theorem of_readEntry (h : readEntry doc path spec k v left = .ok (spec', left')) :
    (doc.text? k = some flagName ∧ ∃ b, spec' = { spec with alwaysRun := b }) ∨
      ∃ name value, doc.text? k = some name ∧ doc.text? v = some value ∧ name ≠ flagName ∧
        name ∉ spec.parameters.keys ∧
        spec' = { spec with parameters := spec.parameters.insert name value } := by
  obtain ⟨⟨key, between⟩, hKey, h⟩ := ok_of_bind h
  have hText := text?_of_string ⟨_, _, _, hKey⟩
  dsimp only at h
  split at h
  · next hFlag =>
      obtain ⟨⟨b, after⟩, -, h⟩ := ok_of_bind h
      cases h
      exact .inl ⟨hFlag ▸ hText, b, rfl⟩
  · next hFlag =>
      obtain ⟨⟨value, after⟩, hValue, h⟩ := ok_of_bind h
      have hRead := text?_of_string ⟨_, _, _, ok_of_mapError hValue⟩
      dsimp only at h
      split at h
      · cases h
      · next hNew =>
          cases h
          refine .inr ⟨key, value, hText, hRead, hFlag, ?_, rfl⟩
          rwa [← Table.contains_iff]

/-- The entries that do not set the flag. -/
def axisEntries (doc : Document) (entries : List (Node × Node)) : List (Node × Node) :=
  entries.filter fun e => doc.text? e.1 ≠ some flagName

/-- Reading entries adds a name and a text for each that does not set the flag, in order. -/
theorem exists_named_of_foldlM
    (h : entries.foldlM (fun spec e => readEntry doc path spec e.1 e.2) spec left =
      .ok (spec', left')) :
    ∃ named, List.Forall₂ (fun e t => doc.text? e.1 = some t.1 ∧ doc.text? e.2 = some t.2)
        (axisEntries doc entries) named ∧
      spec'.parameters.entries = spec.parameters.entries ++ named := by
  induction entries generalizing spec left with
  | nil =>
      cases h
      exact ⟨[], .nil, (List.append_nil _).symm⟩
  | cons entry rest ih =>
      obtain ⟨⟨next, between⟩, hEntry, h⟩ := ok_of_bind h
      obtain ⟨named, hNamed, hEq⟩ := ih h
      rcases of_readEntry hEntry with
        ⟨hFlag, b, rfl⟩ | ⟨name, value, hKey, hValue, hAxis, hNew, rfl⟩
      · refine ⟨named, ?_, hEq⟩
        rwa [axisEntries, List.filter_cons_of_neg (by simpa using hFlag)]
      · refine ⟨(name, value) :: named, ?_, ?_⟩
        · rw [axisEntries, List.filter_cons_of_pos (by simpa [hKey] using hAxis)]
          exact .cons ⟨hKey, hValue⟩ hNamed
        · have hInsert : (spec.parameters.insert name value).entries =
              spec.parameters.entries ++ [(name, value)] := Table.put_of_notMem hNew
          rw [hEq, hInsert, List.append_assoc, List.singleton_append]

/-- A job asked for has the names and texts of the entries that do not set the flag, in order. -/
theorem named_of_reader (h : reader.Takes doc node spec) :
    ∃ entries, doc.entries? node = some entries ∧
      List.Forall₂ (fun e t => doc.text? e.1 = some t.1 ∧ doc.text? e.2 = some t.2)
        (axisEntries doc entries) spec.parameters.entries := by
  obtain ⟨path, left, left', h⟩ := h
  obtain ⟨⟨entries, between⟩, hEntries, h⟩ := ok_of_bind h
  obtain ⟨named, hNamed, hEq⟩ := exists_named_of_foldlM h
  refine ⟨entries, entries?_of_entriesOf hEntries, ?_⟩
  rw [hEq]
  exact hNamed

theorem given_axisEntries {name : String} (hAxis : name ≠ flagName) :
    doc.given name (axisEntries doc entries) = doc.given name entries := by
  rw [Document.given, axisEntries, List.filter_filter, Document.given]
  refine congrArg _ (List.filter_congr fun e _ => ?_)
  by_cases hName : doc.text? e.1 = some name <;> simp [hName, hAxis]

/-- A job asked for gives an axis the text that the entries give it, and no axis is given two. -/
theorem get?_of_reader (h : reader.Takes doc node spec) :
    ∃ entries, doc.entries? node = some entries ∧ ∀ name ≠ flagName,
      spec.parameters.get? name = doc.spelled entries name ∧
        (doc.given name entries).length ≤ 1 := by
  obtain ⟨entries, hEntries, hNamed⟩ := named_of_reader h
  refine ⟨entries, hEntries, fun name hAxis => ?_⟩
  have hGiven := forall₂_given (R := fun n t => doc.text? n = some t) hNamed name
  rw [given_axisEntries hAxis] at hGiven
  constructor
  · rw [← spec.parameters.ofList_entries, Table.get?_ofList]
    exact eq_spelled_of_rel (rel_getLast? hGiven)
  · have hOnce := List.nodup_iff_count_le_one.mp spec.parameters.nodup_keys name
    rw [List.count_eq_countP, List.countP_map, List.countP_eq_length_filter] at hOnce
    rw [hGiven.length_eq, List.length_map]
    exact hOnce

theorem flagName_notMem_keys (h : reader.Takes doc node spec) :
    flagName ∉ spec.parameters.keys := by
  obtain ⟨entries, -, hNamed⟩ := named_of_reader h
  intro hMem
  obtain ⟨t, hMem, hFlag⟩ := List.mem_map.mp hMem
  obtain ⟨e, hEntry, hKey, -⟩ := exists_mem_of_forall₂ hNamed.flip hMem
  have hAxis := (List.mem_filter.mp hEntry).2
  rw [hKey, hFlag] at hAxis
  simp at hAxis

theorem bool_of_carried {b : Bool} (h : Atom.Carried (.bool b) node) :
    Reader.bool doc path node left = .ok (b, left) := by
  cases h with
  | bool p hWord =>
      have hPlain : ∀ s, follow doc (.scalar p s .plain) = pure (.scalar p s .plain) :=
        fun _ => rfl
      unfold Reader.bool
      rw [hPlain, pure_bind]
      simp only [hWord]
      rfl

theorem readEntry_flag {b : Bool} (hKey : Atom.Carried (.text flagName) k)
    (hValue : Atom.Carried (.bool b) v) :
    readEntry doc path spec k v left = .ok ({ spec with alwaysRun := b }, left) := by
  cases hKey with
  | text p _ style =>
      have hFlag : Reader.bool doc (valuePath path (.scalar p flagName style)) v left =
          .ok (b, left) := bool_of_carried hValue
      change (Reader.bool doc _ v left).bind _ = _
      rw [hFlag]
      rfl

theorem readEntry_axis {name value : String} (hAxis : name ≠ flagName)
    (hNew : name ∉ spec.parameters.keys) (hKey : Atom.Carried (.text name) k)
    (hValue : Atom.Carried (.text value) v) :
    readEntry doc path spec k v left =
      .ok ({ spec with parameters := spec.parameters.insert name value }, left) := by
  cases hKey
  cases hValue
  change (if name = flagName then _ else _ : Reading Instance) left = _
  rw [if_neg hAxis]
  change (if spec.parameters.contains name then _ else _ : Reading Instance) left = _
  rw [if_neg (by rwa [Table.contains_iff])]
  rfl

theorem foldlM_axes {named : List (String × String)}
    (hNodup : ((spec.parameters.entries ++ named).map Prod.fst).Nodup)
    (hAxes : flagName ∉ named.map Prod.fst)
    (hNodes : List.Forall₂ Atom.EntryCarried nodes (named.map fun e => (e.1, .text e.2))) :
    nodes.foldlM (fun spec e => readEntry doc path spec e.1 e.2) spec left =
      .ok ({ spec with parameters := spec.parameters.insertAll named }, left) := by
  rw [List.forall₂_map_right_iff] at hNodes
  induction hNodes generalizing spec with
  | nil => rfl
  | @cons e t nodes named hEntry _ ih =>
      obtain ⟨hKey, hValue⟩ := hEntry
      rw [List.map_cons, List.mem_cons, not_or] at hAxes
      have hNew : t.1 ∉ spec.parameters.keys := by
        intro hMem
        rw [List.map_append, List.nodup_append] at hNodup
        exact hNodup.2.2 _ hMem _ List.mem_cons_self rfl
      have hInsert : (spec.parameters.insert t.1 t.2).entries = spec.parameters.entries ++ [t] :=
        Table.put_of_notMem hNew
      rw [List.foldlM_cons]
      change (readEntry doc path spec e.1 e.2 left).bind _ = _
      rw [readEntry_axis (Ne.symm hAxes.1) hNew hKey hValue]
      refine @ih { spec with parameters := spec.parameters.insert t.1 t.2 } ?_ hAxes.2
      rw [hInsert, List.append_assoc]
      exact hNodup

theorem foldlM_flag {flag : Bool} (hFlag : spec.alwaysRun = false)
    (hNodes : List.Forall₂ Atom.EntryCarried nodes
      (if flag then [(flagName, .bool true)] else [])) :
    nodes.foldlM (fun spec e => readEntry doc path spec e.1 e.2) spec left =
      .ok ({ spec with alwaysRun := flag }, left) := by
  cases flag with
  | false =>
      cases hNodes
      rw [← hFlag]
      rfl
  | true =>
      obtain ⟨e, rest, ⟨hKey, hValue⟩, hRest, rfl⟩ := List.forall₂_cons_right_iff.mp hNodes
      cases hRest
      change (readEntry doc path spec e.1 e.2 left).bind _ = _
      rw [readEntry_flag hKey hValue]
      rfl

/-- What a job asked for is written as is read back as it, if the name set apart is not an axis. -/
theorem reader_of_atoms (hAxes : flagName ∉ spec.parameters.keys)
    (hNodes : List.Forall₂ Atom.EntryCarried nodes spec.atoms) (p : Properties) :
    reader doc path (.mapping p nodes) left = .ok (spec, left) := by
  have hFirst := List.forall₂_take_append nodes _ _ hNodes
  have hLast := List.forall₂_drop_append nodes _ _ hNodes
  rw [List.length_map] at hFirst hLast
  change nodes.foldlM (fun spec e => readEntry doc path spec e.1 e.2) (⟨∅, false⟩ : Instance)
    left = _
  rw [← List.take_append_drop spec.parameters.entries.length nodes, List.foldlM_append]
  change ((nodes.take _).foldlM (fun spec e => readEntry doc path spec e.1 e.2)
    (⟨∅, false⟩ : Instance) left).bind _ = _
  rw [@foldlM_axes doc path ⟨∅, false⟩ left _ _ spec.parameters.nodup_keys hAxes hFirst]
  change (nodes.drop _).foldlM (fun spec e => readEntry doc path spec e.1 e.2)
    (⟨Table.ofList spec.parameters.entries, false⟩ : Instance) left = _
  rw [foldlM_flag rfl hLast, Table.ofList_entries]

/-- A mapping in which an axis is named twice, or is given something that is no scalar, is refused,
wherever that stands in it. -/
theorem error_of_malformed (hEntries : doc.entries? node = some entries)
    (malformed : (∃ name ≠ flagName, 2 ≤ (doc.given name entries).length) ∨
      ∃ e ∈ entries, doc.text? e.1 ≠ some flagName ∧ doc.text? e.2 = none) :
    ∃ fault, reader doc path node left = .error fault := by
  cases hRead : reader doc path node left with
  | error fault => exact ⟨fault, rfl⟩
  | ok taken =>
      have hTakes : reader.Takes doc node taken.1 := ⟨_, _, _, hRead⟩
      rcases malformed with ⟨name, hAxis, hTwice⟩ | ⟨e, hMem, hAxis, hNone⟩
      · obtain ⟨others, hOthers, hGiven⟩ := get?_of_reader hTakes
        obtain rfl := Option.some.inj (hEntries.symm.trans hOthers)
        have hOnce := (hGiven name hAxis).2
        omega
      · obtain ⟨others, hOthers, hNamed⟩ := named_of_reader hTakes
        obtain rfl := Option.some.inj (hEntries.symm.trans hOthers)
        have hOwn : e ∈ axisEntries doc entries := List.mem_filter.mpr ⟨hMem, by simpa using hAxis⟩
        obtain ⟨t, -, -, hText⟩ := exists_mem_of_forall₂ hNamed hOwn
        rw [hNone] at hText
        cases hText

/-- A job asked for that has no axis with the name set apart is read back from the entries that it
is written as, with its values in the same order. Every job asked for that is read is such a job: it
has, in the order of the entries, the name and the text of each that does not set the flag, and no
name twice. A mapping in which an axis is named twice, or is given something that is no scalar, is
refused. -/
theorem written_and_read_back :
    (∀ (spec : Instance) (doc : Document) (path : Path) (p : Properties)
      (nodes : List (Node × Node)) (left : Nat), flagName ∉ spec.parameters.keys →
      List.Forall₂ Atom.EntryCarried nodes spec.atoms →
      reader doc path (.mapping p nodes) left = .ok (spec, left)) ∧
    (∀ (doc : Document) (path : Path) (node : Node) (left : Nat) (spec : Instance) (left' : Nat),
      reader doc path node left = .ok (spec, left') →
      (∃ entries, doc.entries? node = some entries ∧
        (axisEntries doc entries).map (fun e => (doc.text? e.1, doc.text? e.2)) =
          spec.parameters.entries.map fun e => (some e.1, some e.2)) ∧
      flagName ∉ spec.parameters.keys ∧ spec.parameters.keys.Nodup ∧
      ∀ (doc' : Document) (path' : Path) (p : Properties) (nodes : List (Node × Node)) (left : Nat),
        List.Forall₂ Atom.EntryCarried nodes spec.atoms →
        reader doc' path' (.mapping p nodes) left = .ok (spec, left)) ∧
    ∀ (doc : Document) (path : Path) (node : Node) (left : Nat) (entries : List (Node × Node)),
      doc.entries? node = some entries →
      ((∃ name ≠ flagName, 2 ≤ (doc.given name entries).length) ∨
        ∃ e ∈ entries, doc.text? e.1 ≠ some flagName ∧ doc.text? e.2 = none) →
      ∃ fault, reader doc path node left = .error fault := by
  refine ⟨fun spec doc path p nodes left hAxes hNodes => reader_of_atoms hAxes hNodes p, ?_,
    fun doc path node left entries => error_of_malformed⟩
  intro doc path node left spec left' hRead
  have hTakes : reader.Takes doc node spec := ⟨_, _, _, hRead⟩
  have hAxes := flagName_notMem_keys hTakes
  obtain ⟨entries, hEntries, hNamed⟩ := named_of_reader hTakes
  refine ⟨⟨entries, hEntries, ?_⟩, hAxes, spec.parameters.nodup_keys,
    fun doc' path' p nodes left hNodes => reader_of_atoms hAxes hNodes p⟩
  rw [← List.forall₂_eq_eq_eq, List.forall₂_map_left_iff, List.forall₂_map_right_iff]
  exact hNamed.imp fun _ _ hBoth => Prod.ext hBoth.1 hBoth.2

def sampleInstance : Instance :=
  ⟨Table.ofList [("runtime_version", "3.10"), ("task_type", "~"), ("always", "true")], true⟩

/-- The entries of the sample, in several ways of writing. -/
def sampleEntries : List (Node × Node) :=
  [(.scalar {} "runtime_version" .plain, .scalar {} "3.10" .plain),
    (.scalar {} "task_type" .quoted, .scalar {} "~" .literal),
    (.scalar {} "always" .plain, .scalar {} "true" .quoted),
    (.scalar {} flagName .plain, .scalar {} "True" .plain)]

/-- The sample is read back from its entries, and also from its text; with an axis named twice its
entries are refused. -/
theorem sample_instance_read_back :
    flagName ∉ sampleInstance.parameters.keys ∧
    List.Forall₂ Atom.EntryCarried sampleEntries sampleInstance.atoms ∧
    (∀ doc, reader doc .root (.mapping {} sampleEntries) 0 = .ok (sampleInstance, 0)) ∧
    (∀ doc, ∃ fault, reader doc .root (.mapping {} (sampleEntries ++ sampleEntries)) 0 =
      .error fault) ∧
    Yaml.read reader sampleInstance.toYaml = .ok sampleInstance := by
  have hAxes : flagName ∉ sampleInstance.parameters.keys := by decide +kernel
  have hNodes : List.Forall₂ Atom.EntryCarried sampleEntries sampleInstance.atoms :=
    .cons ⟨.text _ _ _, .text _ _ _⟩ <| .cons ⟨.text _ _ _, .text _ _ _⟩ <|
      .cons ⟨.text _ _ _, .text _ _ _⟩ <| .cons ⟨.text _ _ _, .bool _ rfl⟩ .nil
  obtain ⟨hBack, -, hRefused⟩ := written_and_read_back
  refine ⟨hAxes, hNodes, fun doc => hBack _ doc _ _ _ 0 hAxes hNodes, fun doc => ?_,
    ok_of_toOption (by decide +kernel)⟩
  exact hRefused doc _ _ 0 _ rfl (.inl ⟨"always", by decide, Nat.le.refl⟩)

end Instance

end ChangeGate
