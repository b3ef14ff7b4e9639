import ChangeGate.Proofs.Store.WriteSteps

/-! Many writes to the directory of a run at once, with readers between any two of their steps. A
key is written once: of its writes at most one succeeds, and readers see nothing of it or all. Any
write may stop for ever, wherever it stands. -/

namespace ChangeGate.Directory

inductive Deed (ι : Type) where
  | step (i : ι)
  | read (key : String) (answer : Except Error Json)

variable {ι : Type}

namespace Traffic

/-- The directory of a run that has just been opened. -/
def start (calls : ι → Call) : Traffic ι := ⟨some ∅, fun i => (calls i).write .create⟩

/-- The text of the file of a key. -/
def text? (c : Traffic ι) (key : String) : Option String := c.dir.bind (·.get? (entryName key))

end Traffic

/-- What may happen in a directory: any write takes a step, or somebody reads a key. -/
inductive Goes [DecidableEq ι] (start : Traffic ι) : List (Deed ι) → Traffic ι → Prop where
  | start : Goes start [] start
  | step {deeds : List (Deed ι)} {c : Traffic ι} (prior : Goes start deeds c) (i : ι) :
      Goes start (deeds ++ [.step i]) (c.step i)
  | read {deeds : List (Deed ι)} {c : Traffic ι} (prior : Goes start deeds c) (key : String) :
      Goes start (deeds ++ [.read key (get c.dir key)]) c

/-- What is so of a directory at any moment: its files are those of the keys that a write has been
published under, one for each, and the staging files of the writes that have not returned. -/
structure Orderly (calls : ι → Call) (c : Traffic ι) (files : Files) : Prop
    extends Stand calls Set.univ c files where
  origin : ∀ key text, isKey key = true → files.get? (entryName key) = some text →
    ∃ i, (calls i).key = key ∧ (c.writes i).Linked
  unique : ∀ i j, (c.writes i).Linked → (c.writes j).Linked → (calls i).key = (calls j).key → i = j
  names : ∀ name, files.contains name = true →
    (∃ i, name = entryName (calls i).key) ∨ ∃ i, name = (c.writes i).staging ∧ (c.writes i).Busy

/-- What lasts in a directory: the files of keys, and that a write has made one. -/
structure Lasts (c c' : Traffic ι) : Prop where
  text : ∀ {key text}, isKey key = true → c.text? key = some text → c'.text? key = some text
  linked : ∀ {i}, (c.writes i).Linked → (c'.writes i).Linked

section

variable {calls : ι → Call} {c c' : Traffic ι} {files : Files} {deeds : List (Deed ι)}

theorem Lasts.refl (c : Traffic ι) : Lasts c c := ⟨fun _ => id, id⟩

theorem Lasts.trans {d : Traffic ι} (left : Lasts c c') (right : Lasts c' d) : Lasts c d :=
  ⟨fun hKey h => right.text hKey (left.text hKey h), fun h => right.linked (left.linked h)⟩

theorem Orderly.text?_eq (orderly : Orderly calls c files) (key : String) :
    c.text? key = files.get? (entryName key) := by
  rw [Traffic.text?, orderly.dir_eq, Option.bind_some]

/-- The file of a key that has been published under is the whole text of that write. -/
theorem Orderly.text?_of_linked (orderly : Orderly calls c files) {i : ι}
    (linked : (c.writes i).Linked) : c.text? (calls i).key = some (calls i).text := by
  rw [orderly.text?_eq]
  exact orderly.get?_of_linked (Set.mem_univ i) linked

/-- The file of a key is the whole text of the one write that has been published under it. -/
theorem Orderly.exists_linked (orderly : Orderly calls c files) {key text : String}
    (hKey : isKey key = true) (h : c.text? key = some text) :
    ∃ i, (calls i).key = key ∧ (c.writes i).Linked ∧ text = (calls i).text := by
  obtain ⟨i, rfl, linked⟩ := orderly.origin key text hKey (orderly.text?_eq key ▸ h)
  exact ⟨i, rfl, linked, Option.some.inj (h.symm.trans (orderly.text?_of_linked linked))⟩

theorem Orderly.start (calls : ι → Call) : Orderly calls (.start calls) ∅ where
  dir_eq := rfl
  write_eq := fun i _ => ⟨.create, rfl⟩
  stands := fun i _ => trivial
  origin := by
    intro key text hKey h
    cases h
  unique := by
    rintro i j (linked | linked) <;> cases linked
  names := by
    intro name h
    cases h

section Run

variable [DecidableEq ι]

/-- Who has read a key has read it at some moment of the run. -/
theorem Goes.of_read {key : String} {answer : Except Error Json} (run : Goes c deeds c')
    (hRead : .read key answer ∈ deeds) :
    ∃ before after d, Goes c before d ∧ Goes d after c' ∧ answer = get d.dir key := by
  induction run with
  | start => cases hRead
  | step prior i ih =>
      rcases List.mem_append.mp hRead with hBefore | hLast
      · obtain ⟨before, after, d, toRead, fromRead, hAnswer⟩ := ih hBefore
        exact ⟨before, _, d, toRead, .step fromRead i, hAnswer⟩
      · cases List.mem_singleton.mp hLast
  | @read deeds d prior other ih =>
      rcases List.mem_append.mp hRead with hBefore | hLast
      · obtain ⟨before, after, d, toRead, fromRead, hAnswer⟩ := ih hBefore
        exact ⟨before, _, d, toRead, .read fromRead other, hAnswer⟩
      · cases List.mem_singleton.mp hLast
        exact ⟨deeds, [], d, prior, .start, rfl⟩

variable (hKeys : ∀ i, isKey (calls i).key = true)
  (hTags : Function.Injective fun i => (calls i).tag)

include hKeys hTags

/-- One step of one write keeps the directory in order. -/
theorem Orderly.step (orderly : Orderly calls c files) (i : ι) :
    ∃ files', Orderly calls (c.step i) files' ∧ Lasts c (c.step i) := by
  obtain ⟨files', move, stand⟩ :=
    orderly.toStand.step (fun j _ => hKeys j) hTags (Set.mem_univ i)
  have hKeyI : (c.writes i).key = (calls i).key := orderly.key_eq (Set.mem_univ i)
  have hLinked : ∀ {j}, (c.writes j).Linked → ((c.step i).writes j).Linked := by
    intro j linked
    by_cases hj : j = i
    · subst hj
      exact move.linked_mono linked
    · rwa [c.writes_step_of_ne i hj]
  have hFresh : ∀ j, ((c.step i).writes j).Linked → (c.writes j).Linked ∨
      j = i ∧ files.get? (entryName (calls i).key) = none := by
    intro j linked
    by_cases hj : j = i
    · subst hj
      have hCases := move.linked_cases linked
      rw [Write.entry, hKeyI] at hCases
      exact hCases.imp id fun hFree => ⟨rfl, hFree⟩
    · rw [c.writes_step_of_ne i hj] at linked
      exact .inl linked
  have hTaken : ∀ {j}, (c.writes j).Linked → (calls j).key = (calls i).key →
      files.get? (entryName (calls i).key) ≠ none := by
    intro j linked hKey
    rw [← hKey, orderly.get?_of_linked (Set.mem_univ j) linked]
    exact Option.some_ne_none _
  refine ⟨files', ⟨stand, ?_, ?_, ?_⟩, ⟨?_, hLinked⟩⟩
  · intro key text hKey hThere
    rcases move.entry_origin hKey hThere with hOld | ⟨rfl, linked, -⟩
    · obtain ⟨j, hCall, linked⟩ := orderly.origin key text hKey hOld
      exact ⟨j, hCall, hLinked linked⟩
    · exact ⟨i, hKeyI.symm, linked⟩
  · -- two published writes of one key: neither can have found the key free after the other
    intro j k hj hk hSame
    rcases hFresh j hj with oldJ | ⟨rfl, hFree⟩ <;> rcases hFresh k hk with oldK | ⟨rfl, hFree'⟩
    · exact orderly.unique j k oldJ oldK hSame
    · exact absurd hFree' (hTaken oldJ hSame)
    · exact absurd hFree (hTaken oldK hSame.symm)
    · rfl
  · intro name hThere
    rcases move.name_origin hThere with hEntry | ⟨hStaging, busy⟩ | ⟨hOld, hIdle⟩
    · exact .inl ⟨i, by rw [hEntry, Write.entry, hKeyI]⟩
    · refine .inr ⟨i, ?_, busy⟩
      rw [hStaging, move.eq_of_phase]
      rfl
    · rcases orderly.names name hOld with hEntry | ⟨j, hStaging, busy⟩
      · exact .inl hEntry
      · have hj : j ≠ i := by
          rintro rfl
          exact hIdle hStaging busy
        refine .inr ⟨j, ?_, ?_⟩ <;> rwa [c.writes_step_of_ne i hj]
  · intro key text hKey h
    rw [orderly.text?_eq] at h
    rw [Traffic.text?, stand.dir_eq, Option.bind_some]
    exact move.entry_kept hKey h

/-- A step of a write that has not made the file of its key changes no file of a key. -/
theorem Orderly.text?_step (orderly : Orderly calls c files) {i : ι}
    (hUnlinked : ¬ ((c.step i).writes i).Linked) {key : String} (hKey : isKey key = true) :
    (c.step i).text? key = c.text? key := by
  obtain ⟨files', move, stand⟩ :=
    orderly.toStand.step (fun j _ => hKeys j) hTags (Set.mem_univ i)
  rw [orderly.text?_eq, Traffic.text?, stand.dir_eq, Option.bind_some]
  exact move.entry_eq hKey fun linked => absurd linked hUnlinked

/-- Whatever happens, the directory stays in order. -/
theorem Goes.orderly (orderly : Orderly calls c files) (run : Goes c deeds c') :
    ∃ files', Orderly calls c' files' ∧ Lasts c c' := by
  induction run with
  | start => exact ⟨files, orderly, .refl c⟩
  | step prior i ih =>
      obtain ⟨before, hBefore, lasts⟩ := ih
      obtain ⟨files', hAfter, last⟩ := hBefore.step hKeys hTags i
      exact ⟨files', hAfter, lasts.trans last⟩
  | read prior key ih => exact ih

/-- Who has read a key has read it in an orderly directory, and what was there then still is. -/
theorem Goes.exists_orderly (orderly : Orderly calls c files) (run : Goes c deeds c')
    {key : String} {answer : Except Error Json} (hRead : .read key answer ∈ deeds) :
    ∃ d files', Orderly calls d files' ∧ Lasts c d ∧ Lasts d c' ∧ answer = get d.dir key := by
  obtain ⟨before, after, d, toRead, fromRead, hAnswer⟩ := run.of_read hRead
  obtain ⟨files', orderlyThen, lasts⟩ := toRead.orderly hKeys hTags orderly
  obtain ⟨-, -, later⟩ := fromRead.orderly hKeys hTags orderlyThen
  exact ⟨d, files', orderlyThen, lasts, later, hAnswer⟩

end Run

/-- A write that has returned has made the file of its key, or has found it there. -/
theorem Orderly.result_cases (orderly : Orderly calls c files) {i : ι} {result : Except Error Unit}
    (h : (c.writes i).result? = some result) :
    (result = .ok () ∨ result = .error (.duplicateWrite (calls i).key)) ∧
      ∃ text, c.text? (calls i).key = some text := by
  obtain ⟨hCases, hThere⟩ := (orderly.stands i (Set.mem_univ i)).result_cases h
  rw [Write.entry, orderly.key_eq (Set.mem_univ i)] at hThere
  rw [orderly.text?_eq]
  rw [orderly.key_eq (Set.mem_univ i)] at hCases
  exact ⟨hCases.imp And.left And.left, Option.isSome_iff_exists.mp hThere⟩

/-- While no write is going on, every file is that of the key of a write that has succeeded. -/
theorem Orderly.exists_succeeded (orderly : Orderly calls c files)
    (hKeys : ∀ i, isKey (calls i).key = true) (hIdle : ∀ i, ¬ (c.writes i).Busy) {name : String}
    (hThere : files.contains name = true) :
    ∃ i, name = entryName (calls i).key ∧ (c.writes i).result? = some (.ok ()) := by
  rcases orderly.names name hThere with ⟨j, rfl⟩ | ⟨j, -, busy⟩
  · obtain ⟨text, hText⟩ := Option.isSome_iff_exists.mp hThere
    obtain ⟨i, hKey, linked⟩ := orderly.origin (calls j).key text (hKeys j) hText
    refine ⟨i, by rw [hKey], ?_⟩
    rcases linked with hPhase | hPhase
    · exact absurd (.inr (.inr ⟨_, hPhase⟩)) (hIdle i)
    · rw [Write.result?, hPhase]
  · exact absurd busy (hIdle j)

end

/-- What publishing by a second name promises, at a moment of a directory that many write to and
read from. -/
structure WriteOnce [DecidableEq ι] (calls : ι → Call) (deeds : List (Deed ι)) (c : Traffic ι) :
    Prop where
  /-- A write that has returned has succeeded or has found its key taken. -/
  result : ∀ i result, (c.writes i).result? = some result →
    result = .ok () ∨ result = .error (.duplicateWrite (calls i).key)
  /-- Of the writes of one key at most one succeeds. -/
  winner : ∀ i j, (c.writes i).result? = some (.ok ()) → (c.writes j).result? = some (.ok ()) →
    (calls i).key = (calls j).key → i = j
  /-- Who has read a key has found nothing, or what is read of the whole text of the one write that
  has made its file. If the numbers of its value are whole, that is this value, unless it is nested
  too deep. -/
  answer : ∀ key answer, isKey key = true → .read key answer ∈ deeds →
    answer = .error (.decisionNotFound key) ∨
      ∃ i, (∀ j, (calls j).key = key ∧ (c.writes j).Linked ↔ j = i) ∧
        answer = reading (calls i).text ∧
        ((calls i).value.Whole → (calls i).value.Ordered →
          answer = if (calls i).value.depth ≤ 127 then .ok (calls i).value
            else .error (.serialization "the entry is no JSON value"))
  /-- The file of a key never changes. -/
  kept : ∀ more c', Goes c more c' → ∀ key text, isKey key = true → c.text? key = some text →
    c'.text? key = some text
  /-- Nobody misses a key once it has been read, or a write of it has succeeded or found it taken.
  -/
  found : ∀ key, isKey key = true →
    ((∃ value, .read key (.ok value) ∈ deeds) ∨ ∃ i, (calls i).key = key ∧
      ((c.writes i).result? = some (.ok ()) ∨
        (c.writes i).result? = some (.error (.duplicateWrite key)))) →
    ∀ more c', Goes c more c' → .read key (.error (.decisionNotFound key)) ∉ more
  /-- A step of a write that is going to fail changes no file of a key. -/
  refused : ∀ i more c' e, Goes (c.step i) more c' → (c'.writes i).result? = some (.error e) →
    ∀ key, isKey key = true → (c.step i).text? key = c.text? key
  /-- While no write is going on, there are only files of keys, each of a write that succeeded. -/
  tidy : (∀ i, ¬ (c.writes i).Busy) → ∃ files, c.dir = some files ∧
    ∀ name, files.contains name = true →
      ∃ i, name = entryName (calls i).key ∧ (c.writes i).result? = some (.ok ())

/-- However many writes there are, in whatever processes, and however their steps and the readers
follow each other, publication is write-once, provided that no two staging files share a tag. -/
theorem published_once [DecidableEq ι] {calls : ι → Call} (hKeys : ∀ i, isKey (calls i).key = true)
    (hTags : Function.Injective fun i => (calls i).tag) {deeds : List (Deed ι)} {c : Traffic ι}
    (run : Goes (.start calls) deeds c) : WriteOnce calls deeds c := by
  obtain ⟨files, orderly, -⟩ := run.orderly hKeys hTags (.start calls)
  have hLinked : ∀ {i}, (c.writes i).result? = some (.ok ()) → (c.writes i).Linked := fun h =>
    .inr (Write.phase_of_result? h)
  refine ⟨fun i result h => (orderly.result_cases h).1, fun i j hi hj hKey =>
    orderly.unique i j (hLinked hi) (hLinked hj) hKey, ?_, ?_, ?_, ?_, ?_⟩
  · intro key answer hKey hRead
    obtain ⟨d, filesThen, orderlyThen, -, lasts, rfl⟩ :=
      run.exists_orderly hKeys hTags (.start calls) hRead
    cases hText : d.text? key with
    | none => exact .inl (get_of_absent hKey hText)
    | some text =>
        obtain ⟨i, rfl, linked, rfl⟩ := orderlyThen.exists_linked hKey hText
        have hAnswer : get d.dir (calls i).key = reading (calls i).text := get_of_text hKey hText
        refine .inr ⟨i, fun j => ⟨fun h => ?_, ?_⟩, hAnswer,
          fun whole ordered => hAnswer.trans (reading_compact whole ordered)⟩
        · exact orderly.unique j i h.2 (lasts.linked linked) h.1
        · rintro rfl
          exact ⟨rfl, lasts.linked linked⟩
  · intro more c' going key text hKey hText
    obtain ⟨-, -, lasts⟩ := going.orderly hKeys hTags orderly
    exact lasts.text hKey hText
  · intro key hKey hSeen more c' going hMissed
    have hThere : ∃ text, c.text? key = some text := by
      rcases hSeen with ⟨value, hRead⟩ | ⟨i, rfl, hResult⟩
      · obtain ⟨d, -, -, -, lasts, hAnswer⟩ :=
          run.exists_orderly hKeys hTags (.start calls) hRead
        cases hText : d.text? key with
        | none => rw [get_of_absent hKey hText] at hAnswer; cases hAnswer
        | some text => exact ⟨text, lasts.text hKey hText⟩
      · rcases hResult with h | h <;> exact (orderly.result_cases h).2
    obtain ⟨text, hText⟩ := hThere
    obtain ⟨d, -, -, lasts, -, hAnswer⟩ := going.exists_orderly hKeys hTags orderly hMissed
    rw [get_of_text hKey (lasts.text hKey hText)] at hAnswer
    exact reading_ne_absent text key hAnswer.symm
  · intro i more c' e going hFailed key hKey
    obtain ⟨filesNext, orderlyNext, -⟩ := orderly.step hKeys hTags i
    obtain ⟨-, -, later⟩ := going.orderly hKeys hTags orderlyNext
    refine orderly.text?_step hKeys hTags (fun linked => ?_) hKey
    cases (later.linked linked).result_eq hFailed
  · exact fun hIdle => ⟨files, orderly.dir_eq, fun name hThere =>
      orderly.exists_succeeded hKeys hIdle hThere⟩

/-- Two writes of different truth values under one key. -/
def sampleCalls (first : Bool) : Call :=
  { key := "key", value := .bool first, tag := Uuid.ofNat (if first then 1 else 2) }

/-- One write goes to its link before the other, each is slower in its other steps, and somebody
reads in between. -/
theorem sample_two_writes : ∃ deeds c, Goes (.start sampleCalls) deeds c ∧
    (c.writes true).result? = some (.ok ()) ∧
    (c.writes false).result? = some (.error (.duplicateWrite "key")) ∧
    .read "key" (.ok (.bool true)) ∈ deeds ∧ WriteOnce sampleCalls deeds c := by
  have hKey : isKey "key" = true := by decide +kernel
  have hTags : ∀ first second, (sampleCalls first).tag = (sampleCalls second).tag →
      first = second := by decide
  have linking : Goes (.start sampleCalls) _ _ :=
    Goes.start |>.step false |>.step true |>.step true |>.step false |>.step true
  have hRead : get ((((((Traffic.start sampleCalls).step false).step true).step true).step
      false).step true).dir "key" = .ok (.bool true) := by
    with_unfolding_all rfl
  have read := linking.read "key"
  rw [hRead] at read
  have run := read |>.step false |>.step true |>.step false |>.step true |>.step false
  refine ⟨_, _, run, ?_, ?_, by simp, published_once (fun _ => hKey) (fun _ _ => hTags _ _) run⟩
  · with_unfolding_all rfl
  · with_unfolding_all rfl

/-- One write of a value. -/
def loneCall (value : Json) (_ : Unit) : Call := { key := "key", value, tag := Uuid.ofNat 1 }

/-- A write that nobody disturbs succeeds, and who reads its key afterwards finds what is read of its
text. -/
theorem lone_write_read (value : Json) : ∃ deeds c, Goes (.start (loneCall value)) deeds c ∧
    (c.writes ()).result? = some (.ok ()) ∧
    .read "key" (reading value.sorted.compact) ∈ deeds := by
  have hKey : isKey "key" = true := by decide +kernel
  have hNe := entryName_ne_stagingName hKey "key" (Uuid.ofNat 1)
  have hEmpty : (∅ : Files).get? (entryName "key") = none := rfl
  let c := ((((Traffic.start (loneCall value)).step ()).step ()).step ()).step ()
  have run : Goes (.start (loneCall value)) _ c :=
    Goes.start |>.step () |>.step () |>.step () |>.step ()
  obtain ⟨hResult, hText⟩ : (c.writes ()).result? = some (.ok ()) ∧
      c.text? "key" = some value.sorted.compact := by
    simp [c, Traffic.step, Traffic.start, Traffic.text?, Call.write, Call.text, loneCall,
      Write.step, Write.result?, link, Table.contains, Table.get?_insert_of_ne,
      Table.get?_erase_of_ne, hNe, hEmpty]
  have read := run.read "key"
  rw [get_of_text hKey hText] at read
  exact ⟨_, c, read, hResult, by simp⟩

/-- The number nearest to 10⁻²⁸. -/
def tinyNumber : Json := .number (.real (.finite false 8920298079412249 (-146)))

/-- The number next to it. -/
def nextNumber : Json := .number (.real (.finite false 8920298079412250 (-146)))

/-- Nothing, in as many arrays within each other. -/
def nested : Nat → Json
  | 0 => .null
  | n + 1 => .array [nested n]

theorem whole_nested (n : Nat) : (nested n).Whole := by
  induction n with
  | zero => exact .null
  | succ n ih => exact .array (by simpa using ih)

theorem ordered_nested (n : Nat) : (nested n).Ordered := by
  induction n with
  | zero => exact .null
  | succ n ih => exact .array (by simpa using ih)

theorem depth_nested (n : Nat) : (nested n).depth = n := by
  induction n with
  | zero => rfl
  | succ n ih => simp [nested, Json.depth, Json.depthItems, ih]

/-- Not every value is read back, although its whole text is there. A number may come back as the
next one, since its digits and its power of ten are rounded one by one in reading; and of a value
that is nested too deep nothing is read. -/
theorem whole_value_not_read_back : isKey "key" = true ∧ tinyNumber ≠ nextNumber ∧
    (∃ deeds c, Goes (.start (loneCall tinyNumber)) deeds c ∧
      (c.writes ()).result? = some (.ok ()) ∧ .read "key" (.ok nextNumber) ∈ deeds) ∧
    ∃ deeds c, Goes (.start (loneCall (nested 128))) deeds c ∧
      (c.writes ()).result? = some (.ok ()) ∧
      .read "key" (.error (.serialization "the entry is no JSON value")) ∈ deeds := by
  have hNumber : Json.parse? tinyNumber.sorted.compact = some nextNumber := by
    have hSame : (Json.parse? tinyNumber.sorted.compact).any (Json.same nextNumber) = true := by
      decide +kernel
    obtain ⟨value, hParse, hValue⟩ := (Option.any_eq_true _ _).mp hSame
    rw [hParse]
    exact congrArg some (Json.eq_number_of_same hValue)
  have hNested : reading (nested 128).sorted.compact =
      .error (.serialization "the entry is no JSON value") := by
    rw [reading_compact (whole_nested 128) (ordered_nested 128), depth_nested]
    exact if_neg (by decide)
  refine ⟨by decide +kernel, ?_, ?_, ?_⟩
  · intro h
    cases h
  · have read := lone_write_read tinyNumber
    rwa [reading, hNumber] at read
  · have read := lone_write_read (nested 128)
    rwa [hNested] at read

end ChangeGate.Directory
