import ChangeGate.Proofs.Decision
import ChangeGate.Proofs.Run.Detection
import ChangeGate.Proofs.Store.Isolation

/-! Recording decisions. A call to detect changes either takes its decision, finds the key free and
adds the flag to the store, or fails and leaves the store as it was, down to the files of its
directory. So of any calls on one store and key at most one succeeds, and the gate goes by it from
then on. -/

namespace ChangeGate

namespace Table

variable {α : Type}

theorem filter_put_self (name : String) (value : α) (entries : List (String × α)) :
    (put name value entries).filter (·.1 ≠ name) = entries.filter (·.1 ≠ name) := by
  induction entries with
  | nil => simp [put]
  | cons e rest ih =>
      obtain ⟨k, v⟩ := e
      by_cases hName : k = name
      · simp [put, hName]
      · simp only [put, if_neg hName, List.filter_cons, ih]

theorem filter_put_of_ne {name other : String} (value : α) (hNe : other ≠ name)
    (entries : List (String × α)) : (put name value entries).filter (·.1 ≠ other) =
      put name value (entries.filter (·.1 ≠ other)) := by
  induction entries with
  | nil => simp [put, hNe.symm]
  | cons e rest ih =>
      obtain ⟨k, v⟩ := e
      by_cases hName : k = name
      · simp [put, hName, hNe.symm]
      · by_cases hOther : k = other
        · subst hOther
          simpa [put, hName] using ih
        · simpa [put, hName, hOther] using ih

/-- Inserting a name and erasing it again comes to erasing it. -/
theorem erase_insert_self (t : Table α) (name : String) (value : α) :
    (t.insert name value).erase name = t.erase name := by
  simp only [erase, insert, mk.injEq]
  exact filter_put_self name value t.entries

theorem erase_insert_of_ne (t : Table α) {name other : String} (value : α) (hNe : other ≠ name) :
    (t.insert name value).erase other = (t.erase other).insert name value := by
  simp only [erase, insert, mk.injEq]
  exact filter_put_of_ne value hNe t.entries

end Table

/-- Where decisions are kept: a table in memory, or the directory of a run. -/
inductive Shelf where
  | memory (t : Table Json)
  | directory (dir : Directory)

namespace Shelf

open Directory (isKey entryName stagingName)

/-- The store on either shelf. The staging file of a write to a directory goes by a tag. -/
def store (tag : Uuid) : Store Shelf where
  put
    | .memory t, key, value => (Store.memory.put t key value).map id .memory
    | .directory dir, key, value => (Directory.put tag dir key value).map id .directory
  get
    | .memory t, key => Store.memory.get t key
    | .directory dir, key => Directory.get dir key

/-- No staging file of a write with this tag is there. -/
def Fresh (tag : Uuid) (key : String) : Shelf → Prop
  | .directory (some files) => files.get? (stagingName key tag) = none
  | _ => True

instance : (s : Shelf) → (tag : Uuid) → (key : String) → Decidable (s.Fresh tag key)
  | .memory _, _, _ => isTrue trivial
  | .directory none, _, _ => isTrue trivial
  | .directory (some files), tag, key => decEq (files.get? (stagingName key tag)) none

/-- A decision can be recorded under a key. -/
inductive Open (key : String) : Shelf → Prop where
  | memory {t : Table Json} (hAbsent : t.get? key = none) : Open key (.memory t)
  | directory {files : Files} (hKey : isKey key = true)
      (hAbsent : files.get? (entryName key) = none) : Open key (.directory (some files))

/-- Why no decision can be recorded under a key. -/
inductive Refuses (key : String) : Shelf → Error → Prop where
  | value {t : Table Json} {value : Json} (hTaken : t.get? key = some value) :
      Refuses key (.memory t) (.duplicateWrite key)
  | file {files : Files} {text : String} (hKey : isKey key = true)
      (hTaken : files.get? (entryName key) = some text) :
      Refuses key (.directory (some files)) (.duplicateWrite key)
  | key {dir : Directory} (hKey : isKey key = false) :
      Refuses key (.directory dir) (.invalidDecisionKey key)
  | gone (hKey : isKey key = true) : Refuses key (.directory none) (.io .notFound)

/-- A shelf to which a flag has been added under a key. -/
def record (key : String) (b : Bool) : Shelf → Shelf
  | .memory t => .memory (t.insert key (.bool b))
  | .directory dir => .directory (dir.map (·.insert (entryName key) (Json.bool b).compact))

variable {tag : Uuid} {key : String} {s : Shelf}

theorem open_or_refuses (key : String) (s : Shelf) : Open key s ∨ ∃ e, Refuses key s e := by
  cases s with
  | memory t =>
      cases hValue : t.get? key with
      | none => exact .inl (.memory hValue)
      | some value => exact .inr ⟨_, .value hValue⟩
  | directory dir =>
      cases hKey : isKey key with
      | false => exact .inr ⟨_, .key hKey⟩
      | true =>
          cases dir with
          | none => exact .inr ⟨_, .gone hKey⟩
          | some files =>
              cases hText : files.get? (entryName key) with
              | none => exact .inl (.directory hKey hText)
              | some text => exact .inr ⟨_, .file hKey hText⟩

/-- Filling a staging file and removing it again leaves no trace. -/
theorem erase_staged {files : Files} {value : Json}
    (hFresh : files.get? (stagingName key tag) = none) :
    (Directory.staged tag files key value).erase (stagingName key tag) = files := by
  rw [Directory.staged, Table.erase_insert_self, Table.erase_insert_self,
    Table.erase_eq_self hFresh]

theorem putFlag_of_refuses {e : Error} (refuses : Refuses key s e) (fresh : s.Fresh tag key)
    (b : Bool) : (store tag).putFlag s key b = (.error e, s) := by
  rw [Store.putFlag]
  cases refuses with
  | value hTaken => simp [store, Store.memory, Table.contains, hTaken]
  | file hKey hTaken =>
      simp [store, Directory.put_some _ _ _ hKey, Table.contains, hTaken, erase_staged fresh]
  | key hKey => simp [store, Directory.put, hKey]
  | gone hKey => simp [store, Directory.put_none _ _ hKey]

theorem putFlag_of_open (isOpen : Open key s) (fresh : s.Fresh tag key) (b : Bool) :
    (store tag).putFlag s key b = (.ok (), s.record key b) := by
  cases isOpen with
  | memory hAbsent =>
      simp [store, Store.putFlag, Store.memory, Table.contains, hAbsent, record]
  | directory hKey hAbsent =>
      have hNe := (Directory.entryName_ne_stagingName hKey key tag).symm
      simp [store, Store.putFlag, Directory.put_some _ _ _ hKey, Table.contains, hAbsent, record,
        Table.erase_insert_of_ne _ _ hNe, erase_staged fresh, Json.sorted]

theorem Open.not_refuses {e : Error} (isOpen : Open key s) : ¬ Refuses key s e := by
  intro refuses
  cases isOpen with
  | memory hAbsent =>
      cases refuses with
      | value hTaken => cases hAbsent.symm.trans hTaken
  | directory hKey hAbsent =>
      cases refuses with
      | file _ hTaken => cases hAbsent.symm.trans hTaken
      | key hNoKey => cases hKey.symm.trans hNoKey

theorem get_of_open (isOpen : Open key s) (tag : Uuid) :
    (store tag).get s key = .error (.decisionNotFound key) := by
  cases isOpen with
  | memory hAbsent => simp [store, Store.memory, hAbsent]
  | directory hKey hAbsent => simp [store, Directory.get, hKey, hAbsent]

section Record

variable (isOpen : Open key s) (b : Bool)

include isOpen

/-- A key under which a flag has been added is taken. -/
theorem refuses_record : Refuses key (s.record key b) (.duplicateWrite key) := by
  cases isOpen with
  | memory hAbsent => exact .value (Table.get?_insert_self _ _ _)
  | directory hKey hAbsent => exact .file hKey (Table.get?_insert_self _ _ _)

/-- The gate goes by a flag that has been added. -/
theorem check_record (tag : Uuid) :
    (store tag).check (s.record key b) key = .ok (if b then .proceed else .skip) := by
  refine Store.check_of_getFlag (Store.getFlag_of_get ?_)
  cases isOpen with
  | memory hAbsent => simp [store, Store.memory, record]
  | directory hKey hAbsent =>
      have hText : Json.parse? (Json.bool b).compact = some (.bool b) := Directory.parse?_bool b
      simp [store, Directory.get, hKey, record, hText]

theorem get_record_of_ne {other : String} (hNe : other ≠ key) (tag : Uuid) :
    (store tag).get (s.record key b) other = (store tag).get s other := by
  cases isOpen with
  | memory hAbsent => simp [store, Store.memory, record, Table.get?_insert_of_ne _ _ hNe]
  | directory hKey hAbsent =>
      have hFile : entryName other ≠ entryName key := fun h => hNe (Directory.entryName_injective h)
      simp [store, Directory.get, record, Table.get?_insert_of_ne _ _ hFile]

theorem Fresh.record (fresh : s.Fresh tag key) : (s.record key b).Fresh tag key := by
  cases isOpen with
  | memory hAbsent => trivial
  | directory hKey hAbsent =>
      have hNe := (Directory.entryName_ne_stagingName hKey key tag).symm
      exact (Table.get?_insert_of_ne _ _ hNe).trans fresh

end Record

/-- A call to detect changes: the patterns it judges by, what comes of listing the changed paths,
and the tag of its write. -/
structure Call where
  patterns : List Pattern
  diff : Except Error (List String)
  tag : Uuid

def Call.detector (key : String) (call : Call) : Detector := ⟨call.patterns, key⟩

/-- What a call returns, and the shelf afterwards. -/
def serve (key : String) (s : Shelf) (call : Call) : Except Error Decision × Shelf :=
  (call.detector key).detect (store call.tag) s call.diff

/-- What calls return, one after another, and the shelf afterwards. -/
def serveAll (key : String) (s : Shelf) : List Call → List (Except Error Decision) × Shelf
  | [] => ([], s)
  | call :: rest =>
    let (result, s) := serve key s call
    let (results, s) := serveAll key s rest
    (result :: results, s)

theorem serveAll_append (key : String) (s : Shelf) (before after : List Call) :
    (serveAll key s (before ++ after)).2 = (serveAll key (serveAll key s before).2 after).2 := by
  induction before generalizing s with
  | nil => rfl
  | cons call rest ih => exact ih _

/-- What comes of a call. -/
inductive Ends (key : String) (s : Shelf) (call : Call) :
    Except Error Decision × Shelf → Prop where
  | unlisted {e : Error} (hDiff : call.diff = .error e) (hKind : e.isRevisionResolution = false) :
      Ends key s call (.error e, s)
  | refused {decision : Decision} {e : Error}
      (hDecision : (call.detector key).evaluate call.diff = .ok decision)
      (refuses : Refuses key s e) : Ends key s call (.error e, s)
  | recorded {decision : Decision}
      (hDecision : (call.detector key).evaluate call.diff = .ok decision) (isOpen : Open key s) :
      Ends key s call (.ok decision, s.record key decision.changesDetected)

section Serve

variable {call : Call}

theorem serve_of_unlisted {e : Error} (hDiff : call.diff = .error e)
    (hKind : e.isRevisionResolution = false) : serve key s call = (.error e, s) :=
  Run.detect_of_evaluate_error _ _ (Detector.evaluate_eq_error_iff.mpr ⟨hDiff, hKind⟩)

variable {decision : Decision}
  (hDecision : (call.detector key).evaluate call.diff = .ok decision)
  (fresh : s.Fresh call.tag key)

include hDecision fresh

theorem serve_of_refuses {e : Error} (refuses : Refuses key s e) :
    serve key s call = (.error e, s) := by
  have hKey : (call.detector key).key = key := rfl
  rw [serve, Run.detect_of_evaluate_ok _ _ hDecision, hKey, putFlag_of_refuses refuses fresh]
  rfl

theorem serve_of_open (isOpen : Open key s) :
    serve key s call = (.ok decision, s.record key decision.changesDetected) := by
  have hKey : (call.detector key).key = key := rfl
  rw [serve, Run.detect_of_evaluate_ok _ _ hDecision, hKey, putFlag_of_open isOpen fresh]
  rfl

end Serve

theorem ends_serve {call : Call} (fresh : s.Fresh call.tag key) :
    Ends key s call (serve key s call) := by
  cases hEvaluate : (call.detector key).evaluate call.diff with
  | error e =>
      obtain ⟨hDiff, hKind⟩ := Detector.evaluate_eq_error_iff.mp hEvaluate
      rw [serve_of_unlisted hDiff hKind]
      exact .unlisted hDiff hKind
  | ok decision =>
      rcases open_or_refuses key s with isOpen | ⟨e, refuses⟩
      · rw [serve_of_open hEvaluate fresh isOpen]
        exact .recorded hEvaluate isOpen
      · rw [serve_of_refuses hEvaluate fresh refuses]
        exact .refused hEvaluate refuses

section Calls

variable {calls : List Call}

theorem Fresh.serve {call : Call} (hCall : s.Fresh call.tag key) (fresh : s.Fresh tag key) :
    (serve key s call).2.Fresh tag key := by
  have ends := ends_serve hCall
  generalize Shelf.serve key s call = result at ends
  cases ends with
  | unlisted => exact fresh
  | refused => exact fresh
  | recorded _ isOpen => exact fresh.record isOpen _

theorem Fresh.serveAll (hCalls : ∀ call ∈ calls, s.Fresh call.tag key) (fresh : s.Fresh tag key) :
    (serveAll key s calls).2.Fresh tag key := by
  induction calls generalizing s with
  | nil => exact fresh
  | cons call rest ih =>
      have hCall := hCalls call List.mem_cons_self
      exact ih (fun c hMem => hCall.serve (hCalls c (List.mem_cons_of_mem _ hMem)))
        (hCall.serve fresh)

/-- Where a key is refused every call fails, and nothing changes. -/
theorem serveAll_of_refuses {e : Error} (refuses : Refuses key s e)
    (fresh : ∀ call ∈ calls, s.Fresh call.tag key) :
    (∀ result ∈ (serveAll key s calls).1, ∃ e, result = .error e) ∧
      (serveAll key s calls).2 = s := by
  induction calls with
  | nil => exact ⟨nofun, rfl⟩
  | cons call rest ih =>
      have ends := ends_serve (fresh call List.mem_cons_self)
      obtain ⟨hResults, hState⟩ := ih fun c hMem => fresh c (List.mem_cons_of_mem _ hMem)
      rw [serveAll]
      generalize serve key s call = result at ends
      cases ends with
      | unlisted hDiff hKind => exact ⟨List.forall_mem_cons.mpr ⟨⟨_, rfl⟩, hResults⟩, hState⟩
      | refused hDecision _ => exact ⟨List.forall_mem_cons.mpr ⟨⟨_, rfl⟩, hResults⟩, hState⟩
      | recorded hDecision isOpen => exact absurd refuses isOpen.not_refuses

/-- While a key is free no call has succeeded, and nothing has changed. -/
theorem serveAll_of_open (isOpen : Open key (serveAll key s calls).2)
    (fresh : ∀ call ∈ calls, s.Fresh call.tag key) :
    (∀ result ∈ (serveAll key s calls).1, ∃ e, result = .error e) ∧
      (serveAll key s calls).2 = s := by
  induction calls with
  | nil => exact ⟨nofun, rfl⟩
  | cons call rest ih =>
      have hRest := fun c hMem => fresh c (List.mem_cons_of_mem call hMem)
      have ends := ends_serve (fresh call List.mem_cons_self)
      rw [serveAll] at isOpen ⊢
      generalize serve key s call = result at ends isOpen ⊢
      cases ends with
      | unlisted hDiff hKind =>
          obtain ⟨hResults, hState⟩ := ih isOpen hRest
          exact ⟨List.forall_mem_cons.mpr ⟨⟨_, rfl⟩, hResults⟩, hState⟩
      | refused hDecision refuses =>
          obtain ⟨hResults, hState⟩ := ih isOpen hRest
          exact ⟨List.forall_mem_cons.mpr ⟨⟨_, rfl⟩, hResults⟩, hState⟩
      | @recorded decision hDecision wasOpen =>
          -- the key would be taken from here on
          have refuses := refuses_record wasOpen decision.changesDetected
          obtain ⟨-, hState⟩ := serveAll_of_refuses refuses
            fun c hMem => (hRest c hMem).record wasOpen _
          exact absurd (hState ▸ refuses) isOpen.not_refuses

end Calls

/-- What it is to have recorded a decision: it is the one that the listing calls for, the key was
free, the shelf differs in its flag only, and the gate goes by it. -/
structure Recorded (key : String) (s : Shelf) (call : Call) (decision : Decision) (s' : Shelf) :
    Prop where
  evaluated : (call.detector key).evaluate call.diff = .ok decision
  absent : (store call.tag).get s key = .error (.decisionNotFound key)
  added : s' = s.record key decision.changesDetected
  kept : ∀ other ≠ key, (store call.tag).get s' other = (store call.tag).get s other
  checked : (store call.tag).check s' key =
    .ok (if decision.changesDetected then .proceed else .skip)

theorem recorded_of_open {call : Call} {decision : Decision} (isOpen : Open key s)
    (hDecision : (call.detector key).evaluate call.diff = .ok decision) :
    Recorded key s call decision (s.record key decision.changesDetected) where
  evaluated := hDecision
  absent := get_of_open isOpen _
  added := rfl
  kept := fun _ hNe => get_record_of_ne isOpen _ hNe _
  checked := check_record isOpen _ _

/-- A call fails for one of the reasons there are. -/
theorem serve_eq_error_iff {call : Call} (fresh : s.Fresh call.tag key) (e : Error) :
    (serve key s call).1 = .error e ↔
      (call.diff = .error e ∧ e.isRevisionResolution = false) ∨
      ((∃ decision, (call.detector key).evaluate call.diff = .ok decision) ∧
        Refuses key s e) := by
  constructor
  · intro hError
    have ends := ends_serve fresh
    generalize serve key s call = result at ends hError
    cases ends with
    | unlisted hDiff hKind =>
        cases hError
        exact .inl ⟨hDiff, hKind⟩
    | refused hDecision refuses =>
        cases hError
        exact .inr ⟨⟨_, hDecision⟩, refuses⟩
    | recorded hDecision isOpen => cases hError
  · rintro (⟨hDiff, hKind⟩ | ⟨⟨decision, hDecision⟩, refuses⟩)
    · rw [serve_of_unlisted hDiff hKind]
    · rw [serve_of_refuses hDecision fresh refuses]

/-- Detecting changes is all or nothing, at every call of a sequence. A call that succeeds has
recorded the decision that its listing calls for; it alone succeeds, and what the gate says
afterwards goes by it. A call that fails leaves the store as it was, and it fails exactly if the
listing failed for another reason than that a revision does not resolve, or the store refuses the
key. -/
theorem detection_all_or_nothing {before after : List Call} {call : Call}
    (fresh : ∀ c ∈ before ++ call :: after, s.Fresh c.tag key) :
    (∀ decision s', serve key (serveAll key s before).2 call = (.ok decision, s') →
      Recorded key (serveAll key s before).2 call decision s' ∧
      (∀ result ∈ (serveAll key s before).1 ++ (serveAll key s' after).1, ∃ e, result = .error e) ∧
      ∀ tag, (store tag).check (serveAll key s (before ++ call :: after)).2 key =
        .ok (if decision.changesDetected then .proceed else .skip)) ∧
    (∀ e s', serve key (serveAll key s before).2 call = (.error e, s') →
      s' = (serveAll key s before).2) ∧
    ∀ e, (serve key (serveAll key s before).2 call).1 = .error e ↔
      (call.diff = .error e ∧ e.isRevisionResolution = false) ∨
      ((∃ decision, (call.detector key).evaluate call.diff = .ok decision) ∧
        Refuses key (serveAll key s before).2 e) := by
  have hBefore : ∀ c ∈ before, s.Fresh c.tag key := fun c hMem =>
    fresh c (List.mem_append_left _ hMem)
  have hFrom : ∀ c ∈ call :: after, (serveAll key s before).2.Fresh c.tag key := fun c hMem =>
    Fresh.serveAll hBefore (fresh c (List.mem_append_right _ hMem))
  have hCall := hFrom call List.mem_cons_self
  have ends := ends_serve hCall
  refine ⟨?_, ?_, serve_eq_error_iff hCall⟩
  · intro decision s' hServe
    rw [serveAll_append, serveAll, hServe]
    rw [hServe] at ends
    cases ends with
    | recorded hDecision isOpen =>
        obtain ⟨hEarlier, -⟩ := serveAll_of_open isOpen hBefore
        obtain ⟨hLater, hState⟩ := serveAll_of_refuses
          (refuses_record isOpen decision.changesDetected)
          fun c hMem => (hFrom c (List.mem_cons_of_mem _ hMem)).record isOpen _
        refine ⟨recorded_of_open isOpen hDecision, List.forall_mem_append.mpr ⟨hEarlier, hLater⟩,
          fun tag => ?_⟩
        have hCheck := check_record isOpen decision.changesDetected tag
        rwa [← hState] at hCheck
  · intro e s' hServe
    rw [hServe] at ends
    cases ends <;> rfl

/-- The directory of a run that holds a value under another key. -/
def sampleShelf : Shelf := .directory (some (Table.ofList [("tests.json", "true")]))

/-- A call whose listing fails. -/
def failingCall : Call := ⟨[], .error (.diff "no git"), .ofNat 1⟩

/-- A call that has nothing to compare with. -/
def incomparableCall : Call :=
  ⟨[.ofText "src/"], .error (.revisionResolution "main" "unknown revision"), .ofNat 2⟩

/-- A call that finds no relevant change. -/
def irrelevantCall : Call := ⟨[.ofText "src/"], .ok ["docs/a"], .ofNat 3⟩

/-- The second call succeeds after the first has failed, and the third cannot take back what it
says: that changes are assumed, or that there are none. -/
theorem sample_second_call_records :
    (∃ decision s', decision.changesDetected = true ∧
      Recorded "changes" sampleShelf incomparableCall decision s' ∧
      (store (.ofNat 0)).check (serveAll "changes" sampleShelf
        [failingCall, incomparableCall, irrelevantCall]).2 "changes" = .ok .proceed) ∧
    ∃ decision s', decision.changesDetected = false ∧
      Recorded "changes" sampleShelf irrelevantCall decision s' ∧
      (store (.ofNat 0)).check (serveAll "changes" sampleShelf
        [failingCall, irrelevantCall, incomparableCall]).2 "changes" = .ok .skip := by
  have isOpen : Open "changes" sampleShelf := .directory (by decide +kernel) (by decide)
  have freshAll : ∀ c ∈ [failingCall, incomparableCall, irrelevantCall],
      sampleShelf.Fresh c.tag "changes" := by decide
  constructor
  · obtain ⟨hRecorded, -, -⟩ := @detection_all_or_nothing "changes" sampleShelf [failingCall]
      [irrelevantCall] incomparableCall freshAll
    obtain ⟨recorded, -, hCheck⟩ :=
      hRecorded _ _ (serve_of_open rfl (freshAll _ (by simp)) isOpen)
    exact ⟨_, _, rfl, recorded, hCheck _⟩
  · obtain ⟨hRecorded, -, -⟩ := @detection_all_or_nothing "changes" sampleShelf [failingCall]
      [incomparableCall] irrelevantCall fun c hMem => freshAll c (by grind)
    obtain ⟨recorded, -, hCheck⟩ :=
      hRecorded _ _ (serve_of_open rfl (freshAll _ (by simp)) isOpen)
    exact ⟨_, _, rfl, recorded, hCheck _⟩

end Shelf

end ChangeGate
