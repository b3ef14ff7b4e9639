import ChangeGate.Proofs.Expansion.Listing
import ChangeGate.Proofs.Form.Instance

/-! Values that are spelled the same are the same. Whether it stands among the values of an axis, in
a job asked for or in a partial tuple, a scalar is read as its text, whatever else it could mean. So
what a job asked for repeats of an axis is declared, and a partial tuple that repeats a job asked
for leaves it out. -/

namespace ChangeGate

open Yaml Yaml.Reader

variable {doc : Document} {path : Path} {node : Node} {left left' : Nat} {m : Matrix}

/-- The texts of the values that the node of a matrix gives an axis. -/
def Yaml.Document.valuesOf? (doc : Document) (node : Node) (axis : String) :
    Option (List (Option String)) :=
  (doc.field? node "axes").bind fun axes =>
    ((doc.field? axes axis).bind doc.items?).map (·.map doc.text?)

namespace Yaml.Reader

variable {expected : String} {texts : List String} {named : List (String × String)}
  {nodes : List Node} {entries : List (Node × Node)}

theorem string_of_carried {text : String} (h : Atom.Carried (.text text) node) :
    string expected doc path node left = .ok (text, left) := by
  cases h
  rfl

theorem items_of_carried (h : List.Forall₂ (fun n t => Atom.Carried (.text t) n) nodes texts)
    (index : Nat) : items (string expected) doc path index nodes left = .ok (texts, left) := by
  induction h generalizing index with
  | nil => rfl
  | cons hFirst _ ih =>
      change (string expected doc _ _ left).bind _ = _
      rw [string_of_carried hFirst]
      change (items (string expected) doc path (index + 1) _ left).bind _ = _
      rw [ih]
      rfl

theorem tableEntries_of_carried
    (h : List.Forall₂ Atom.EntryCarried entries (named.map fun e => (e.1, .text e.2))) :
    tableEntries (string expected) doc path entries left = .ok (named, left) := by
  rw [List.forall₂_map_right_iff] at h
  induction h with
  | nil => rfl
  | cons hFirst _ ih =>
      change (string "a string" doc path _ left).bind _ = _
      rw [string_of_carried hFirst.1]
      change (string expected doc _ _ left).bind _ = _
      rw [string_of_carried hFirst.2]
      change (tableEntries (string expected) doc path _ left).bind _ = _
      rw [ih]
      rfl

/-- A list of scalars is read as their texts. -/
theorem list_of_carried (h : List.Forall₂ (fun n t => Atom.Carried (.text t) n) nodes texts)
    (p : Properties) :
    list (string expected) doc path (.sequence p nodes) left = .ok (texts, left) :=
  items_of_carried h 0

/-- A mapping of scalars is read as the table of their texts. -/
theorem table_of_carried
    (h : List.Forall₂ Atom.EntryCarried entries (named.map fun e => (e.1, .text e.2)))
    (p : Properties) :
    table (string expected) doc path (.mapping p entries) left =
      .ok (Table.ofList named, left) := by
  change (tableEntries (string expected) doc path entries left).bind _ = _
  rw [tableEntries_of_carried h]
  rfl

end Yaml.Reader

namespace Matrix

/-- A matrix has the texts that a node gives it. The name set apart in a job asked for is no axis
there. -/
structure SpelledIn (doc : Document) (node : Node) (m : Matrix) : Prop where
  axes : ∀ axis, (m.axes.get? axis).map (·.map some) = doc.valuesOf? node axis
  instances : List.Forall₂ (fun n spec => ∀ axis ≠ Instance.flagName,
    spec.parameters.get? axis = doc.textAt? n axis) (doc.itemsAt node "instances") m.instances
  exclude : List.Forall₂ (fun n e => ∀ axis, e.get? axis = doc.textAt? n axis)
    (doc.itemsAt node "exclude") m.exclude

theorem valuesOf?_of_axes {axes : Table (List String)} {outer : Node}
    (hOuter : doc.field? node "axes" = some outer)
    (h : (Reader.table (.list .text)).Takes doc outer axes) (axis : String) :
    (axes.get? axis).map (·.map some) = doc.valuesOf? node axis := by
  obtain ⟨entries, hEntries, hGiven⟩ := get?_of_table h
  rw [Document.valuesOf?, hOuter, Option.bind_some, Document.field?, hEntries, Option.bind_some,
    Option.map_bind]
  refine map_eq_bind_of_rel (hGiven axis) fun n values hValues => ?_
  obtain ⟨nodes, hNodes, hTexts⟩ := items?_of_list hValues
  rw [Function.comp_apply, hNodes, Option.map_some]
  exact congrArg some (map_text?_of_forall₂ (hTexts.imp fun _ _ => text?_of_string))

theorem textAt?_of_instance {spec : Instance} (h : Instance.reader.Takes doc node spec) :
    ∀ axis ≠ Instance.flagName, spec.parameters.get? axis = doc.textAt? node axis := by
  obtain ⟨entries, hEntries, hGiven⟩ := Instance.get?_of_reader h
  intro axis hAxis
  rw [Document.textAt?_eq_spelled hEntries]
  exact (hGiven axis hAxis).1

/-- A matrix that is read has the texts that stand there. -/
theorem spelledIn_of_reader (h : Matrix.reader.Takes doc node m) : m.SpelledIn doc node := by
  obtain ⟨entries, p, path, left, left', hEntries, hParts, hDone⟩ := recordEntries_of_record h
  obtain ⟨axes, hAxes, hDone⟩ := ok_of_bind hDone
  cases hDone
  have hAxesTaken : Option.Rel ((Reader.table (.list .text)).Takes doc)
      (doc.field? node "axes") p.axes := by
    refine rel_field?_of_recordEntries hEntries rfl (fun _ _ => rfl) (fun o field hMem hName => ?_)
      rfl hParts
    simp only [List.mem_cons, List.not_mem_nil, or_false] at hMem
    rcases hMem with rfl | rfl | rfl | rfl
    all_goals first | exact absurd rfl hName | exact Field.keeps_of_unread fun _ _ => id
  have hInstances : Option.Rel ((Reader.list Instance.reader).Takes doc)
      (doc.field? node "instances") p.instances := by
    refine rel_field?_of_recordEntries hEntries rfl (fun _ _ => rfl) (fun o field hMem hName => ?_)
      rfl hParts
    simp only [List.mem_cons, List.not_mem_nil, or_false] at hMem
    rcases hMem with rfl | rfl | rfl | rfl
    all_goals first | exact absurd rfl hName | exact Field.keeps_of_unread fun _ _ => id
  have hExclude : Option.Rel ((Reader.list .texts).Takes doc)
      (doc.field? node "exclude") p.exclude := by
    refine rel_field?_of_recordEntries hEntries rfl (fun _ _ => rfl) (fun o field hMem hName => ?_)
      rfl hParts
    simp only [List.mem_cons, List.not_mem_nil, or_false] at hMem
    rcases hMem with rfl | rfl | rfl | rfl
    all_goals first | exact absurd rfl hName | exact Field.keeps_of_unread fun _ _ => id
  refine ⟨?_, forall₂_itemsAt hInstances fun _ _ => textAt?_of_instance,
    forall₂_itemsAt hExclude fun _ _ => get?_of_texts⟩
  rw [eq_some_of_required hAxes] at hAxesTaken
  generalize hOuter : doc.field? node "axes" = o at hAxesTaken
  cases hAxesTaken with
  | some hTaken => exact valuesOf?_of_axes hOuter hTaken

end Matrix

/-- A workflow that is read has a matrix with the texts that stand there. -/
theorem Workflow.spelledIn_of_text {text : String} {w : Workflow}
    (hDoc : document? text = some doc) (h : Workflow.ofText text = .ok w) :
    ∃ node, doc.field? doc.root "matrix" = some node ∧ w.matrix.SpelledIn doc node := by
  obtain ⟨w, hRead, h⟩ := ok_of_bind h
  obtain ⟨-, -, h⟩ := ok_of_bind h
  cases h
  obtain ⟨entries, p, path, left, left', hEntries, hParts, hDone⟩ :=
    recordEntries_of_record (takes_of_read hDoc (ok_of_mapError hRead))
  obtain ⟨name, -, hDone⟩ := ok_of_bind hDone
  obtain ⟨matrix, hMatrix, hDone⟩ := ok_of_bind hDone
  obtain ⟨task, -, hDone⟩ := ok_of_bind hDone
  cases hDone
  have hTaken : Option.Rel (Matrix.reader.Takes doc) (doc.field? doc.root "matrix") p.matrix := by
    refine rel_field?_of_recordEntries hEntries rfl (fun _ _ => rfl) (fun o field hMem hName => ?_)
      rfl hParts
    simp only [List.mem_cons, List.not_mem_nil, or_false] at hMem
    rcases hMem with rfl | rfl | rfl | rfl | rfl | rfl | rfl
    all_goals first | exact absurd rfl hName | exact Field.keeps_of_unread fun _ _ => id
  rw [eq_some_of_required hMatrix] at hTaken
  generalize doc.field? doc.root "matrix" = given at hTaken
  cases hTaken with
  | some hTaken => exact ⟨_, rfl, Matrix.spelledIn_of_reader hTaken⟩

/-- The checks of a workflow do not look at what its jobs asked for give the axes. -/
theorem Workflow.not_isOfValue_of_check {w : Workflow} {fault : Matrix.Fault}
    (h : w.check = .error (.matrix fault)) : ¬ fault.IsOfValue := by
  unfold Workflow.check at h
  split_ifs at h
  any_goals cases h
  · exact id
  · have hAxes := error_of_mapError h fun _ _ => Workflow.Fault.matrix.inj
    exact Matrix.not_isOfValue_of_checkAxes hAxes

theorem Workflow.not_isOfValue_of_text {text : String} {fault : Matrix.Fault}
    (h : Workflow.ofText text = .error (.rejected (.matrix fault))) : ¬ fault.IsOfValue := by
  rcases error_of_bind h with hRead | ⟨w, -, h⟩
  · cases hText : Yaml.read Workflow.reader text with
    | ok w => rw [hText] at hRead; cases hRead
    | error e => rw [hText] at hRead; cases hRead
  · rcases error_of_bind h with hCheck | ⟨-, -, h⟩
    · have hFault := error_of_mapError hCheck fun _ _ => Workflow.TextError.rejected.inj
      exact not_isOfValue_of_check hFault
    · cases h

namespace Matrix

/-- Each job asked for gives each axis a text that is also one of its values. -/
def RepeatsValues (doc : Document) (node : Node) (m : Matrix) : Prop :=
  ∀ n ∈ doc.itemsAt node "instances", ∀ axis ∈ m.axes.keys, ∃ text ∈ doc.textAt? n axis,
    ∃ texts ∈ doc.valuesOf? node axis, some text ∈ texts

/-- The entries of a partial tuple, of which there are some, repeat the texts that a job asked for
gives axes. -/
def RepeatsTexts (doc : Document) (partialTuple job : Node) : Prop :=
  ∃ entries ∈ doc.entries? partialTuple, entries ≠ [] ∧ ∀ e ∈ entries, ∃ axis ∈ doc.text? e.1,
    ∃ text ∈ doc.text? e.2, axis ≠ Instance.flagName ∧ doc.textAt? job axis = some text

instance : Decidable (RepeatsValues doc node m) := by
  unfold RepeatsValues
  infer_instance

instance (partialTuple job : Node) : Decidable (RepeatsTexts doc partialTuple job) := by
  unfold RepeatsTexts
  infer_instance

variable {spec spec' : Instance} {fault : Fault} {workflow : String} {newId : Nat → JobId}

theorem SpelledIn.not_isOfValue (spelled : m.SpelledIn doc node)
    (hFlag : Instance.flagName ∉ m.axes.keys) (repeats : RepeatsValues doc node m)
    (h : m.expand workflow newId = .error fault) : ¬ fault.IsOfValue := by
  refine not_isOfValue_of_expand (fun spec hMem axis hAxis => ?_) h
  obtain ⟨n, hNode, hTexts⟩ := exists_mem_of_forall₂ spelled.instances.flip hMem
  have hKey : axis.1 ∈ m.axes.keys := List.mem_map_of_mem hAxis
  obtain ⟨text, hText, texts, hValues, hDeclared⟩ := repeats n hNode axis.1 hKey
  have hEqual := spelled.axes axis.1
  rw [Table.mem_entries_iff.mp hAxis, hValues, Option.map_some, Option.some.injEq] at hEqual
  rw [← hEqual] at hDeclared
  obtain ⟨value, hValue, hSame⟩ := List.mem_map.mp hDeclared
  obtain rfl := Option.some.inj hSame
  refine ⟨value, hValue, ?_⟩
  rw [hTexts axis.1 fun hIs => hFlag (hIs ▸ hKey)]
  exact hText

theorem agrees_of_repeats {n n' : Node} {e : Parameters}
    (hSpec : ∀ axis ≠ Instance.flagName, spec.parameters.get? axis = doc.textAt? n axis)
    (hPartial : ∀ axis, e.get? axis = doc.textAt? n' axis) (repeats : RepeatsTexts doc n' n) :
    agrees spec.parameters e = true := by
  obtain ⟨entries, hEntries, hSome, hEach⟩ := repeats
  -- the last entry for an axis counts, and it repeats the text as every other does
  have hGiven : ∀ axis v, (doc.given axis entries).getLast? = some v → axis ≠ Instance.flagName ∧
      ∃ text, doc.text? v = some text ∧ doc.textAt? n axis = some text := by
    intro axis v hLast
    obtain ⟨entry, hMem, rfl⟩ := List.mem_map.mp (List.mem_of_getLast? hLast)
    obtain ⟨hEntry, hKey⟩ := List.mem_filter.mp hMem
    obtain ⟨own, hOwn, text, hText, hAxis, hSame⟩ := hEach entry hEntry
    obtain rfl := Option.some.inj (hOwn.symm.trans (of_decide_eq_true hKey))
    exact ⟨hAxis, text, hText, hSame⟩
  rw [agrees_iff]
  constructor
  · obtain ⟨first, hFirst⟩ := List.exists_mem_of_ne_nil _ hSome
    obtain ⟨axis, hKey, -⟩ := hEach first hFirst
    have hMem : first.2 ∈ doc.given axis entries :=
      List.mem_map_of_mem (List.mem_filter.mpr ⟨hFirst, decide_eq_true hKey⟩)
    obtain ⟨v, hLast⟩ := Option.isSome_iff_exists.mp
      (List.getLast?_isSome.mpr (List.ne_nil_of_mem hMem))
    obtain ⟨-, text, hText, -⟩ := hGiven axis v hLast
    refine List.ne_nil_of_mem (Table.mem_keys_iff.mpr ⟨text, ?_⟩ : axis ∈ e.keys)
    rw [hPartial, Document.textAt?_eq_spelled hEntries, Document.spelled, hLast]
    exact hText
  · intro axis value hValue
    rw [hPartial, Document.textAt?_eq_spelled hEntries, Document.spelled] at hValue
    obtain ⟨v, hLast, hText⟩ := Option.bind_eq_some_iff.mp hValue
    obtain ⟨hAxis, text, hOwn, hSame⟩ := hGiven axis v hLast
    rw [hSpec axis hAxis, hSame, ← hOwn, hText]

/-- A scalar is read as its text, in whatever style, wherever it stands: among the values of an
axis, in a partial tuple or in a job asked for. A matrix that is read has the texts that stand
there. So if each job asked for gives each axis a text that is one of its values, and no axis has
the name set apart, the matrix is never at fault for a value that is not there or not declared; and
a partial tuple whose entries, of which there are some, repeat the texts of a job asked for leaves
it out. -/
theorem values_go_by_their_spelling :
    (∀ (doc : Document) (path : Path) (p : Properties) (left : Nat),
      (∀ nodes texts, List.Forall₂ (fun n t => Atom.Carried (.text t) n) nodes texts →
        Reader.list .text doc path (.sequence p nodes) left = .ok (texts, left)) ∧
      ∀ (entries : List (Node × Node)) (named : List (String × String)),
        List.Forall₂ Atom.EntryCarried entries (named.map fun e => (e.1, .text e.2)) →
        Reader.texts doc path (.mapping p entries) left = .ok (Table.ofList named, left) ∧
        ((named.map Prod.fst).Nodup → Instance.flagName ∉ named.map Prod.fst →
          Instance.reader doc path (.mapping p entries) left =
            .ok (⟨Table.ofList named, false⟩, left))) ∧
    (∀ text fault, Workflow.ofText text = .error (.rejected (.matrix fault)) → ¬ fault.IsOfValue) ∧
    ∀ text doc w, document? text = some doc → Workflow.ofText text = .ok w →
      ∃ node, doc.field? doc.root "matrix" = some node ∧ w.matrix.SpelledIn doc node ∧
        (Instance.flagName ∉ w.matrix.axes.keys → RepeatsValues doc node w.matrix →
          ∀ workflow newId fault, w.matrix.expand workflow newId = .error fault →
            ¬ fault.IsOfValue) ∧
        List.Forall₂ (fun n spec => List.Forall₂ (fun n' e => RepeatsTexts doc n' n →
            agrees spec.parameters e = true ∧ w.matrix.isExcluded spec.parameters = true ∧
            ∀ spec', w.matrix.normalize spec = .ok spec' →
              w.matrix.isExcluded spec'.parameters = true)
          (doc.itemsAt node "exclude") w.matrix.exclude)
        (doc.itemsAt node "instances") w.matrix.instances := by
  refine ⟨fun doc path p left => ⟨fun nodes texts h => list_of_carried h p, ?_⟩,
    fun text fault => Workflow.not_isOfValue_of_text, ?_⟩
  · intro entries named h
    refine ⟨table_of_carried h p, fun hNodup hAxes => ?_⟩
    have hEntries := Table.entries_ofList hNodup
    have hAtoms : Instance.atoms ⟨Table.ofList named, false⟩ =
        named.map fun e => (e.1, .text e.2) := by
      rw [Instance.atoms, hEntries]
      exact List.append_nil _
    exact Instance.reader_of_atoms (by rwa [Table.keys, hEntries]) (by rwa [hAtoms]) p
  · intro text doc w hDoc hText
    obtain ⟨node, hNode, spelled⟩ := Workflow.spelledIn_of_text hDoc hText
    refine ⟨node, hNode, spelled, fun hFlag repeats workflow newId fault =>
      spelled.not_isOfValue hFlag repeats, ?_⟩
    have hExclude := forall₂_and_right.mpr
      ⟨spelled.exclude, fun e (hMem : e ∈ w.matrix.exclude) => hMem⟩
    refine spelled.instances.imp fun n spec hSpec => hExclude.imp fun n' e hPartial repeats => ?_
    have hAgrees := agrees_of_repeats hSpec hPartial.1 repeats
    have hExcluded : w.matrix.isExcluded spec.parameters = true :=
      List.any_eq_true.mpr ⟨e, hPartial.2, hAgrees⟩
    refine ⟨hAgrees, hExcluded, fun spec' hNormal => ?_⟩
    have orders := normalize_eq_ok_iff.mp hNormal
    exact isExcluded_iff.mpr ((isExcluded_iff.mp hExcluded).of_alike orders.alike.symm)

/-- Versions that would be numbers elsewhere, some of them in quotes. -/
def sampleVersions : String :=
  "name: ci\ntask: {run: make}\n" ++
  "matrix:\n  axes:\n    v: [3.9, 3.10]\n  instances:\n  - v: '3.10'\n  - v: 3.9\n" ++
  "  exclude:\n  - v: '3.9'\n"

/-- The jobs asked for repeat values of the axis, so none of these is at fault; one of them has its
text repeated by the partial tuple and is left out. -/
theorem sample_versions_read :
    ∃ doc w node, document? sampleVersions = some doc ∧ Workflow.ofText sampleVersions = .ok w ∧
      doc.field? doc.root "matrix" = some node ∧ Instance.flagName ∉ w.matrix.axes.keys ∧
      RepeatsValues doc node w.matrix ∧
      w.matrix.instances.map (·.parameters.get? "v") = [some "3.10", some "3.9"] ∧
      (∀ workflow newId fault, w.matrix.expand workflow newId = .error fault → ¬ fault.IsOfValue) ∧
      ∃ spec ∈ w.matrix.instances, w.matrix.isExcluded spec.parameters = true := by
  have hSample : ∃ doc ∈ document? sampleVersions, ∃ w ∈ (Workflow.ofText sampleVersions).toOption,
      ∀ node ∈ doc.field? doc.root "matrix",
        Instance.flagName ∉ w.matrix.axes.keys ∧ RepeatsValues doc node w.matrix ∧
        w.matrix.instances.map (·.parameters.get? "v") = [some "3.10", some "3.9"] ∧
        ∃ n ∈ doc.itemsAt node "instances", ∃ n' ∈ doc.itemsAt node "exclude",
          RepeatsTexts doc n' n := by
    decide +kernel
  obtain ⟨doc, hDoc, w, hSome, hSample⟩ := hSample
  have hText := ok_of_toOption hSome
  obtain ⟨-, -, hRead⟩ := values_go_by_their_spelling
  obtain ⟨node, hNode, -, hDeclared, hLeftOut⟩ := hRead _ doc w hDoc hText
  obtain ⟨hFlag, repeats, hValues, n, hMem, n', hMem', repeats'⟩ := hSample node hNode
  obtain ⟨spec, hSpec, hTuples⟩ := exists_mem_of_forall₂ hLeftOut hMem
  obtain ⟨e, -, hRepeats⟩ := exists_mem_of_forall₂ hTuples hMem'
  exact ⟨doc, w, node, hDoc, hText, hNode, hFlag, repeats, hValues, hDeclared hFlag repeats, spec,
    hSpec, (hRepeats repeats').2.1⟩

/-- An axis with the name set apart, to which a job asked for gives a text that is one of its
values. -/
def flagVersions : String :=
  "name: ci\ntask: {run: make}\nmatrix: {axes: {always_run: [true]}, instances: [{always_run: true}]}"

/-- The only job asked for gives the only axis the text of its only value, once; but the matrix is
at fault because the job has no value for the axis. -/
theorem flag_axis_has_no_value :
    ∃ doc w node, document? flagVersions = some doc ∧ Workflow.ofText flagVersions = .ok w ∧
      doc.field? doc.root "matrix" = some node ∧ w.matrix.axes.keys = [Instance.flagName] ∧
      RepeatsValues doc node w.matrix ∧
      (doc.itemsAt node "instances").map (doc.textAt? · Instance.flagName) = [some "true"] ∧
      doc.valuesOf? node Instance.flagName = some [some "true"] ∧
      ∀ workflow newId, w.matrix.expand workflow newId =
        .error (.missingValue ∅ Instance.flagName) := by
  have hSample : ∃ doc ∈ document? flagVersions, ∃ w ∈ (Workflow.ofText flagVersions).toOption,
      ∃ node ∈ doc.field? doc.root "matrix", w.matrix.axes.keys = [Instance.flagName] ∧
        RepeatsValues doc node w.matrix ∧
        (doc.itemsAt node "instances").map (doc.textAt? · Instance.flagName) = [some "true"] ∧
        doc.valuesOf? node Instance.flagName = some [some "true"] ∧
        w.matrix.kept = .error (.missingValue ∅ Instance.flagName) := by
    decide +kernel
  obtain ⟨doc, hDoc, w, hSome, node, hNode, hKeys, repeats, hTexts, hValues, hKept⟩ := hSample
  exact ⟨doc, w, node, hDoc, ok_of_toOption hSome, hNode, hKeys, repeats, hTexts, hValues,
    fun _ _ => expand_of_fault hKept⟩

end Matrix

end ChangeGate
