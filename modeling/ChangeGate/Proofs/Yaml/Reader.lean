import ChangeGate.Proofs.Except
import ChangeGate.Proofs.Table
import ChangeGate.Yaml.Reader

/-! What readers make of a document. Whatever a reader yields has a property if each of its steps
keeps it. What a reader takes from a node is what stands there: the text of a scalar, the items of a
list, the entries of a mapping, and for each name the node that it is given. -/

namespace ChangeGate

namespace Yaml

/-- Whatever is read has a property. -/
def Reading.Yields {α : Type} (reading : Reading α) (P : α → Prop) : Prop :=
  ∀ left a left', reading left = .ok (a, left') → P a

section

variable {α β : Type} {P : α → Prop} {Q : β → Prop}

theorem Reading.yields_pure {a : α} (h : P a) : Yields (pure a) P := by
  rintro left _ _ ⟨⟩
  exact h

theorem Reading.yields_throw (e : ReadError) : Yields (throw e : Reading α) P := nofun

/-- What comes of one reading after another. -/
theorem Reading.Yields.bind {reading : Reading α} {next : α → Reading β}
    (first : Yields reading P) (second : ∀ a, P a → Yields (next a) Q) :
    Yields (reading >>= next) Q := by
  intro left b left' h
  obtain ⟨⟨a, between⟩, hFirst, hNext⟩ := ok_of_bind h
  exact second a (first _ _ _ hFirst) _ _ _ hNext

theorem Reading.Yields.map {reading : Reading α} {f : α → β} (first : Yields reading P)
    (hMap : ∀ a, P a → Q (f a)) : Yields (f <$> reading) Q := by
  intro left b left' h
  obtain ⟨⟨a, between⟩, hFirst, hNext⟩ := ok_of_bind h
  cases hNext
  exact hMap a (first _ _ _ hFirst)

theorem Reading.yields_true (reading : Reading α) : Yields reading fun _ => True :=
  fun _ _ _ _ => trivial

end

namespace Reader

variable {α R : Type} {P : α → Prop} {Q : R → Prop}

/-- Whatever a reader reads has a property. -/
def Yields (reader : Reader α) (P : α → Prop) : Prop :=
  ∀ doc path node, (reader doc path node).Yields P

theorem yields_number (greatest : Nat) (expected : String) :
    Yields (number greatest expected) (· ≤ greatest) := by
  intro doc path node
  refine (Reading.yields_true _).bind fun node _ => ?_
  dsimp only
  split
  · split
    · split
      · exact Reading.yields_throw _
      · split
        · next h => exact Reading.yields_pure h
        · exact Reading.yields_throw _
    · exact Reading.yields_throw _
  · exact Reading.yields_throw _

theorem Yields.option {reader : Reader α} (h : Yields reader P) (outer : Path) :
    Yields (option outer reader) fun o => ∀ a, o = some a → P a := by
  have hSome : ∀ a, P a → ∀ b, some a = some b → P b := by
    rintro a hHolds _ ⟨⟩
    exact hHolds
  intro doc path node
  refine (Reading.yields_true _).bind fun node _ => ?_
  split
  · split
    · split
      · exact Reading.yields_pure nofun
      · exact Reading.yields_throw _
    · split
      · exact Reading.yields_pure nofun
      · exact (h doc path _).map hSome
  · exact (h doc path _).map hSome

/-- A field of a record keeps a property of what has been read of it. -/
def Field.Keeps (field : Field R) (Q : R → Prop) : Prop :=
  ∀ outer doc path node r, Q r → (field.read outer doc path node r).Yields Q

theorem Field.keeps_of {name : String} {get : R → Option α} {reader : Path → Reader α}
    {set : α → R → R} (hReader : ∀ outer, Yields (reader outer) P)
    (hSet : ∀ a r, P a → Q r → Q (set a r)) : (Field.of name get reader set).Keeps Q :=
  fun outer doc path node r hHolds =>
    (hReader outer doc path node).map fun a hValue => hSet a r hValue hHolds

theorem Field.keeps_of_unread {name : String} {get : R → Option α} {reader : Path → Reader α}
    {set : α → R → R} (hSet : ∀ a r, Q r → Q (set a r)) :
    (Field.of name get reader set).Keeps Q :=
  Field.keeps_of (P := fun _ => True) (fun _ _ _ _ => Reading.yields_true _) fun a r _ => hSet a r

theorem yields_recordEntries {fields : List (Field R)} (hFields : ∀ field ∈ fields, field.Keeps Q)
    (doc : Document) (path : Path) {r : R} (hStart : Q r) (entries : List (Node × Node)) :
    (recordEntries fields doc path r entries).Yields Q := by
  induction entries generalizing r with
  | nil => exact Reading.yields_pure hStart
  | cons entry rest ih =>
      refine (Reading.yields_true _).bind fun key _ => ?_
      split
      · exact ih hStart
      · next field hField =>
          have hMem := List.mem_of_find?_eq_some hField
          split
          · exact Reading.yields_throw _
          · exact (hFields field hMem path doc _ _ _ hStart).bind fun r hHolds => ih hHolds

/-- A record has a property if its parts have one at the start, which every field keeps, and which
the finished record takes from them. -/
theorem yields_record {expected : String} {fields : List (Field R)} {start : R}
    {finish : R → Except Shape.Fault α} (hFields : ∀ field ∈ fields, field.Keeps Q)
    (hStart : Q start) (hFinish : ∀ r a, Q r → finish r = .ok a → P a) :
    Yields (record expected fields start finish) P := by
  intro doc path node
  refine (Reading.yields_true _).bind fun entries _ => ?_
  refine (yields_recordEntries hFields doc path hStart entries).bind fun r hHolds => ?_
  split
  · next a hDone => exact Reading.yields_pure (hFinish r a hHolds hDone)
  · exact Reading.yields_throw _

theorem eq_some_of_required {name : String} {o : Option α} {a : α}
    (h : required name o = .ok a) : o = some a := by
  cases o with
  | none => cases h
  | some b => cases h; rfl

end Reader

theorem read_yields {α : Type} {P : α → Prop} {reader : Reader α} {text : String} {a : α}
    (h : reader.Yields P) (hRead : read reader text = .ok a) : P a := by
  unfold read at hRead
  split at hRead
  · cases hRead
  · split at hRead
    · next hReading =>
        cases hRead
        exact h _ _ _ _ _ _ hReading
    · cases hRead

namespace Document

variable (doc : Document)

/-- The text of the scalar that a node is or stands for: its content, however it is written and
whatever it would mean to other readers. -/
def text? (node : Node) : Option String :=
  match doc.target node with
  | .scalar _ text _ => some text
  | _ => none

/-- The items of the list that a node is or stands for. An empty scalar counts as an empty list. -/
def items? (node : Node) : Option (List Node) :=
  match doc.target node with
  | .sequence _ items => some items
  | node => if Reader.isEmpty node then some [] else none

/-- The entries of the mapping that a node is or stands for. An empty scalar counts as an empty
one. -/
def entries? (node : Node) : Option (List (Node × Node)) :=
  match doc.target node with
  | .mapping _ entries => some entries
  | node => if Reader.isEmpty node then some [] else none

/-- The nodes that entries give a name, in order. -/
def given (name : String) (entries : List (Node × Node)) : List Node :=
  (entries.filter fun e => doc.text? e.1 = some name).map Prod.snd

/-- The text that entries give a name: that of the last node that the name is given. -/
def spelled (entries : List (Node × Node)) (name : String) : Option String :=
  (doc.given name entries).getLast?.bind doc.text?

/-- The node that a mapping gives a name: the last, if there are several. -/
def field? (node : Node) (name : String) : Option Node :=
  (doc.entries? node).bind fun entries => (doc.given name entries).getLast?

/-- The text that a mapping gives a name. -/
def textAt? (node : Node) (name : String) : Option String :=
  (doc.field? node name).bind doc.text?

/-- The items of the list that a mapping gives a name. -/
def itemsAt (node : Node) (name : String) : List Node :=
  ((doc.field? node name).bind doc.items?).getD []

variable {doc}

theorem textAt?_eq_spelled {node : Node} {entries : List (Node × Node)}
    (h : doc.entries? node = some entries) (name : String) :
    doc.textAt? node name = doc.spelled entries name := by
  rw [textAt?, field?, h]
  rfl

theorem given_cons_self {name : String} {k v : Node} {rest : List (Node × Node)}
    (h : doc.text? k = some name) : doc.given name ((k, v) :: rest) = v :: doc.given name rest := by
  simp [given, h]

theorem given_cons_of_ne {name key : String} {k v : Node} {rest : List (Node × Node)}
    (h : doc.text? k = some key) (hOther : key ≠ name) :
    doc.given name ((k, v) :: rest) = doc.given name rest := by
  simp [given, h, hOther]

end Document

theorem rel_getLast? {α β : Type} {R : α → β → Prop} {l : List α} {u : List β}
    (h : List.Forall₂ R l u) : Option.Rel R l.getLast? u.getLast? := by
  induction h with
  | nil => exact .none
  | cons hFirst hRest ih =>
      cases hRest with
      | nil => exact .some hFirst
      | cons _ _ => rwa [List.getLast?_cons_cons, List.getLast?_cons_cons]

/-- Where one value is there exactly if another is, and is found from it, it is what is found. -/
theorem map_eq_bind_of_rel {α β γ : Type} {R : α → γ → Prop} {f : α → Option β} {g : γ → β}
    {o : Option α} {o' : Option γ} (h : Option.Rel R o o')
    (hFound : ∀ a c, R a c → f a = some (g c)) : o'.map g = o.bind f := by
  cases h with
  | none => rfl
  | some hRel => exact (hFound _ _ hRel).symm

namespace Reader

variable {α P : Type} {doc : Document} {node : Node} {path : Path} {left left' : Nat}

theorem eq_target_of_follow {found : Node} (h : follow doc node left = .ok (found, left')) :
    found = doc.target node := by
  cases node with
  | «alias» anchor =>
      cases left with
      | zero => cases h
      | succ left => cases h; rfl
  | _ => cases h; rfl

/-- A reader takes a value from a node, in some place and with some number of aliases left. -/
def Takes (reader : Reader α) (doc : Document) (node : Node) (a : α) : Prop :=
  ∃ path left left', reader doc path node left = .ok (a, left')

theorem takes_of_read {reader : Reader α} {text : String} {a : α} (hDoc : document? text = some doc)
    (h : read reader text = .ok a) : reader.Takes doc doc.root a := by
  unfold read at h
  rw [hDoc] at h
  dsimp only at h
  split at h
  · next hReading =>
      cases h
      exact ⟨_, _, _, hReading⟩
  · cases h

/-- A text is taken as it is written, whatever it would mean. -/
theorem text?_of_string {expected text : String} (h : (string expected).Takes doc node text) :
    doc.text? node = some text := by
  obtain ⟨path, left, left', h⟩ := h
  obtain ⟨⟨found, between⟩, hFollow, h⟩ := ok_of_bind h
  rw [eq_target_of_follow hFollow] at h
  unfold Document.text?
  cases hFound : doc.target node with
  | scalar p text style => rw [hFound] at h; cases h; rfl
  | _ => rw [hFound] at h; cases h

theorem entries?_of_entriesOf {expected : String} {entries : List (Node × Node)}
    (h : entriesOf expected doc path node left = .ok (entries, left')) :
    doc.entries? node = some entries := by
  obtain ⟨⟨found, between⟩, hFollow, h⟩ := ok_of_bind h
  rw [eq_target_of_follow hFollow] at h
  unfold Document.entries?
  cases hFound : doc.target node with
  | mapping p entries => rw [hFound] at h; cases h; rfl
  | _ =>
      rw [hFound] at h
      dsimp only at h ⊢
      split at h
      · next hEmpty => cases h; rw [if_pos hEmpty]
      · cases h

theorem forall₂_of_items {reader : Reader α} {index : Nat} {nodes : List Node} {taken : List α}
    (h : items reader doc path index nodes left = .ok (taken, left')) :
    List.Forall₂ (reader.Takes doc) nodes taken := by
  induction nodes generalizing index left taken with
  | nil => cases h; exact .nil
  | cons node rest ih =>
      obtain ⟨⟨a, between⟩, hFirst, h⟩ := ok_of_bind h
      obtain ⟨⟨as, after⟩, hRest, h⟩ := ok_of_bind h
      cases h
      exact .cons ⟨_, _, _, hFirst⟩ (ih hRest)

/-- A list is taken item by item. -/
theorem items?_of_list {reader : Reader α} {taken : List α}
    (h : (list reader).Takes doc node taken) :
    ∃ nodes, doc.items? node = some nodes ∧ List.Forall₂ (reader.Takes doc) nodes taken := by
  obtain ⟨path, left, left', h⟩ := h
  obtain ⟨⟨found, between⟩, hFollow, h⟩ := ok_of_bind h
  rw [eq_target_of_follow hFollow] at h
  unfold Document.items?
  cases hFound : doc.target node with
  | sequence p nodes =>
      rw [hFound] at h
      exact ⟨nodes, rfl, forall₂_of_items h⟩
  | _ =>
      rw [hFound] at h
      dsimp only at h ⊢
      split at h
      · next hEmpty => cases h; exact ⟨[], by rw [if_pos hEmpty], .nil⟩
      · cases h

theorem forall₂_of_tableEntries {reader : Reader α} {entries : List (Node × Node)}
    {taken : List (String × α)}
    (h : tableEntries reader doc path entries left = .ok (taken, left')) :
    List.Forall₂ (fun e t => doc.text? e.1 = some t.1 ∧ reader.Takes doc e.2 t.2)
      entries taken := by
  induction entries generalizing left taken with
  | nil => cases h; exact .nil
  | cons entry rest ih =>
      obtain ⟨⟨key, between⟩, hKey, h⟩ := ok_of_bind h
      obtain ⟨⟨value, after⟩, hValue, h⟩ := ok_of_bind h
      obtain ⟨⟨others, last⟩, hRest, h⟩ := ok_of_bind h
      cases h
      exact .cons ⟨text?_of_string ⟨_, _, _, hKey⟩, _, _, _, hValue⟩ (ih hRest)

/-- Of the entries taken from a mapping, those with a name are taken from the nodes it is given. -/
theorem forall₂_given {R : Node → α → Prop} {entries : List (Node × Node)}
    {taken : List (String × α)}
    (h : List.Forall₂ (fun e t => doc.text? e.1 = some t.1 ∧ R e.2 t.2) entries taken)
    (name : String) : List.Forall₂ R (doc.given name entries)
      ((taken.filter (·.1 = name)).map Prod.snd) := by
  induction h with
  | nil => exact .nil
  | @cons e t _ _ hFirst _ ih =>
      obtain ⟨hKey, hValue⟩ := hFirst
      by_cases hName : t.1 = name
      · rw [Document.given_cons_self (hName ▸ hKey), List.filter_cons_of_pos (by simpa using hName)]
        exact .cons hValue ih
      · rw [Document.given_cons_of_ne hKey hName, List.filter_cons_of_neg (by simpa using hName)]
        exact ih

/-- A table gives a name what is taken from the last node that is given it. -/
theorem get?_of_table {reader : Reader α} {t : Table α} (h : (table reader).Takes doc node t) :
    ∃ entries, doc.entries? node = some entries ∧ ∀ name,
      Option.Rel (reader.Takes doc) (doc.given name entries).getLast? (t.get? name) := by
  obtain ⟨path, left, left', h⟩ := h
  obtain ⟨⟨entries, between⟩, hEntries, h⟩ := ok_of_bind h
  obtain ⟨⟨taken, after⟩, hTaken, h⟩ := ok_of_bind h
  cases h
  refine ⟨entries, entries?_of_entriesOf hEntries, fun name => ?_⟩
  rw [Table.get?_ofList]
  exact rel_getLast? (forall₂_given (forall₂_of_tableEntries hTaken) name)

theorem eq_spelled_of_rel {entries : List (Node × Node)} {name : String} {o : Option String}
    (h : Option.Rel (fun n t => doc.text? n = some t) (doc.given name entries).getLast? o) :
    o = doc.spelled entries name := by
  have hText := map_eq_bind_of_rel (g := id) h fun _ _ hText => hText
  rwa [Option.map_id, id] at hText

/-- A table of texts gives a name the text of the last node that is given it. -/
theorem get?_of_texts {expected : String} {t : Table String}
    (h : (table (string expected)).Takes doc node t) (name : String) :
    t.get? name = doc.textAt? node name := by
  obtain ⟨entries, hEntries, hGiven⟩ := get?_of_table h
  have hText := map_eq_bind_of_rel (g := id) (hGiven name) fun _ _ => text?_of_string
  rw [Option.map_id, id] at hText
  rw [Document.textAt?_eq_spelled hEntries]
  exact hText

/-- The items of a list that a mapping gives a name are those that are taken. -/
theorem forall₂_itemsAt {reader : Reader α} {Q : Node → α → Prop} {name : String}
    {o : Option (List α)} (h : Option.Rel ((list reader).Takes doc) (doc.field? node name) o)
    (hEach : ∀ n a, reader.Takes doc n a → Q n a) :
    List.Forall₂ Q (doc.itemsAt node name) (o.getD []) := by
  unfold Document.itemsAt
  generalize doc.field? node name = given at h
  cases h with
  | none => exact .nil
  | some hList =>
      obtain ⟨nodes, hNodes, hTaken⟩ := items?_of_list hList
      rw [Option.bind_some, hNodes]
      exact hTaken.imp hEach

theorem map_text?_of_forall₂ {nodes : List Node} {texts : List String}
    (h : List.Forall₂ (fun n t => doc.text? n = some t) nodes texts) :
    nodes.map doc.text? = texts.map some := by
  rw [← List.forall₂_eq_eq_eq, List.forall₂_map_left_iff, List.forall₂_map_right_iff]
  exact h

/-- A record is taken from entries that are read field by field. -/
theorem recordEntries_of_record {expected : String} {fields : List (Field P)} {start : P}
    {finish : P → Except Shape.Fault α} {a : α}
    (h : (record expected fields start finish).Takes doc node a) :
    ∃ entries p path left left', doc.entries? node = some entries ∧
      recordEntries fields doc path start entries left = .ok (p, left') ∧ finish p = .ok a := by
  obtain ⟨path, left, left', h⟩ := h
  obtain ⟨⟨entries, between⟩, hEntries, h⟩ := ok_of_bind h
  obtain ⟨⟨p, after⟩, hParts, h⟩ := ok_of_bind h
  refine ⟨entries, p, path, between, after, entries?_of_entriesOf hEntries, hParts, ?_⟩
  dsimp only at h
  cases hFinish : finish p with
  | ok b => rw [hFinish] at h; cases h; rfl
  | error fault => rw [hFinish] at h; cases h

section

variable {fields : List (Field P)} {name : String} {get : P → Option α} {reader : Reader α}
  {set : α → P → P} {entries : List (Node × Node)} {p p' : P}

/-- Where only the field of a name sets a part of a record, the part is what it was before or what
is taken from a node that the name is given. -/
theorem exists_taken_of_recordEntries
    (hField : fields.find? (·.name == name) = some (.of name get (fun _ => reader) set))
    (hSet : ∀ a p, get (set a p) = some a)
    (hOthers : ∀ o, ∀ field ∈ fields, field.name ≠ name → field.Keeps (get · = o))
    (h : recordEntries fields doc path p entries left = .ok (p', left')) :
    ∃ taken, List.Forall₂ (reader.Takes doc) (doc.given name entries) taken ∧
      (get p').toList = (get p).toList ++ taken := by
  induction entries generalizing p left with
  | nil =>
      cases h
      exact ⟨[], .nil, (List.append_nil _).symm⟩
  | cons entry rest ih =>
      obtain ⟨k, v⟩ := entry
      obtain ⟨⟨key, between⟩, hKey, h⟩ := ok_of_bind h
      have hText := text?_of_string ⟨_, _, _, hKey⟩
      dsimp only at h
      cases hFind : fields.find? (·.name == key) with
      | none =>
          have hName : key ≠ name := by
            rintro rfl
            rw [hField] at hFind
            cases hFind
          rw [hFind] at h
          rw [Document.given_cons_of_ne hText hName]
          exact ih h
      | some field =>
          rw [hFind] at h
          dsimp only at h
          split at h
          · cases h
          · next hSeen =>
              obtain ⟨⟨q, after⟩, hRead, h⟩ := ok_of_bind h
              by_cases hName : key = name
              · subst hName
                obtain rfl := Option.some.inj (hField.symm.trans hFind)
                obtain ⟨⟨a, last⟩, hTake, hEq⟩ := ok_of_bind hRead
                cases hEq
                obtain ⟨taken, hTaken, hEq⟩ := ih h
                have hNone : get p = none := by simpa [Field.of] using hSeen
                refine ⟨a :: taken, ?_, ?_⟩
                · rw [Document.given_cons_self hText]
                  exact .cons ⟨_, _, _, hTake⟩ hTaken
                · rw [hEq, hSet, hNone]
                  rfl
              · have hMem := List.mem_of_find?_eq_some hFind
                have hOwn : field.name = key := by simpa using List.find?_some hFind
                have hSame : get q = get p :=
                  hOthers _ field hMem (hOwn ▸ hName) path doc _ _ p rfl _ _ _ hRead
                rw [Document.given_cons_of_ne hText hName, ← hSame]
                exact ih h

/-- A part that is not there at the start is taken from the node that its name is given, and there
is at most one. -/
theorem forall₂_of_recordEntries
    (hField : fields.find? (·.name == name) = some (.of name get (fun _ => reader) set))
    (hSet : ∀ a p, get (set a p) = some a)
    (hOthers : ∀ o, ∀ field ∈ fields, field.name ≠ name → field.Keeps (get · = o))
    (hStart : get p = none) (h : recordEntries fields doc path p entries left = .ok (p', left')) :
    List.Forall₂ (reader.Takes doc) (doc.given name entries) (get p').toList := by
  obtain ⟨taken, hTaken, hEq⟩ := exists_taken_of_recordEntries hField hSet hOthers h
  rw [hEq, hStart]
  exact hTaken

/-- A part that is not there at the start is taken from what the mapping gives its name. -/
theorem rel_field?_of_recordEntries (hEntries : doc.entries? node = some entries)
    (hField : fields.find? (·.name == name) = some (.of name get (fun _ => reader) set))
    (hSet : ∀ a p, get (set a p) = some a)
    (hOthers : ∀ o, ∀ field ∈ fields, field.name ≠ name → field.Keeps (get · = o))
    (hStart : get p = none) (h : recordEntries fields doc path p entries left = .ok (p', left')) :
    Option.Rel (reader.Takes doc) (doc.field? node name) (get p') := by
  have hLast := rel_getLast? (forall₂_of_recordEntries hField hSet hOthers hStart h)
  have hPart : (get p').toList.getLast? = get p' := by cases get p' <;> rfl
  rw [Document.field?, hEntries]
  rwa [hPart] at hLast

end

end Reader

end Yaml

end ChangeGate
