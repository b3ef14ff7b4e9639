import ChangeGate.Proofs.Json.RoundTrip
import ChangeGate.Proofs.Store.Flag
import ChangeGate.Store.Request

/-! Stores as write-once maps. What a store answers follows from the requests before alone: a key
has the value that it was given first. The store in memory and the directory of a run answer alike,
since a value is read back from its text. -/

namespace ChangeGate

namespace Store

variable {σ : Type}

/-- A value of which a text keeps everything: its numbers are whole, its objects are in order, and
it is not nested deeper than a text may be. -/
structure Keepable (value : Json) : Prop where
  whole : value.Whole
  ordered : value.Ordered
  depth_le : value.depth ≤ 127

theorem Keepable.bool (b : Bool) : Keepable (.bool b) := ⟨.bool b, .bool b, Nat.zero_le _⟩

theorem Keepable.parse?_compact {value : Json} (keepable : Keepable value) :
    Json.parse? value.sorted.compact = some value := by
  rw [keepable.ordered.sorted_eq]
  exact Json.parse?_compact keepable.whole keepable.ordered (Nat.lt_succ_of_le keepable.depth_le)

namespace Request

def key : Request → String
  | .put key _ => key
  | .putFlag key _ => key
  | .get key => key
  | .getFlag key => key
  | .check key => key

/-- The key and the value that a request wants to be written. -/
def write? : Request → Option (String × Json)
  | .put key value => some (key, value)
  | .putFlag key value => some (key, .bool value)
  | _ => none

/-- A request that a directory takes: its key may be the name of a file, and its value, if it has
one, may be kept as a text. -/
structure Allowed (request : Request) : Prop where
  isKey : Directory.isKey request.key = true
  keepable : ∀ entry, request.write? = some entry → Keepable entry.2

end Request

/-- What a history wants to be written, in order. -/
def writes (history : List Request) : List (String × Json) := history.filterMap Request.write?

/-- The value that a history gives to a key: the first one. -/
def firstWritten (history : List Request) (key : String) : Option Json :=
  (writes history).lookup key

/-- What a write-once map answers to a write, when a key has this value. -/
def answerWrite (key : String) : Option Json → Except Error Reply
  | none => .ok .written
  | some _ => .error (.duplicateWrite key)

/-- What a write-once map answers to a request for the value of a key. -/
def answerGet (key : String) : Option Json → Except Error Json
  | none => .error (.decisionNotFound key)
  | some value => .ok value

/-- What a write-once map answers to a request for the truth value of a key. -/
def answerFlag (key : String) : Option Json → Except Error Bool
  | none => .error (.decisionNotFound key)
  | some (.bool b) => .ok b
  | some _ => .error (.serialization ("value for '" ++ key ++ "' is not a boolean"))

/-- What the gate answers by a write-once map: jobs go on if the value is true, and are skipped if
it is false. -/
def answerCheck (key : String) (value : Option Json) : Except Error Verdict :=
  (answerFlag key value).map fun flag => if flag then .proceed else .skip

/-- What a write-once map answers to a request after a history. -/
def answer (history : List Request) : Request → Except Error Reply
  | .put key _ => answerWrite key (firstWritten history key)
  | .putFlag key _ => answerWrite key (firstWritten history key)
  | .get key => (answerGet key (firstWritten history key)).map .value
  | .getFlag key => (answerFlag key (firstWritten history key)).map .flag
  | .check key => (answerCheck key (firstWritten history key)).map .verdict

/-- A store that keeps the first writes of a list, in the states that hold them. -/
structure WritesOnce (store : Store σ) (Holds : σ → List (String × Json) → Prop) : Prop where
  get : ∀ {s entries key}, Holds s entries → Directory.isKey key = true →
    store.get s key = answerGet key (entries.lookup key)
  put : ∀ {s entries key value}, Holds s entries → Directory.isKey key = true → Keepable value →
    (store.put s key value).1.map (fun _ => .written) = answerWrite key (entries.lookup key) ∧
      Holds (store.put s key value).2 (entries ++ [(key, value)])

theorem writes_append_of_write {history : List Request} {request : Request}
    {entry : String × Json} (h : request.write? = some entry) :
    writes (history ++ [request]) = writes history ++ [entry] := by
  simp [writes, h]

theorem writes_append_of_read {history : List Request} {request : Request}
    (h : request.write? = none) : writes (history ++ [request]) = writes history := by
  simp [writes, h]

section

variable {store : Store σ} {Holds : σ → List (String × Json) → Prop} {s : σ}
  {history requests : List Request} {request : Request}

theorem WritesOnce.getFlag (once : store.WritesOnce Holds) (holds : Holds s (writes history))
    {key : String} (hKey : Directory.isKey key = true) :
    store.getFlag s key = answerFlag key (firstWritten history key) := by
  simp only [Store.getFlag, once.get holds hKey]
  cases hFirst : (writes history).lookup key with
  | none => simp only [firstWritten, hFirst]; rfl
  | some value => cases value <;> simp only [firstWritten, hFirst] <;> rfl

/-- One request is answered by the history, and becomes part of it. -/
theorem WritesOnce.serve (once : store.WritesOnce Holds) (holds : Holds s (writes history))
    (allowed : request.Allowed) :
    (store.serve s request).1 = answer history request ∧
      Holds (store.serve s request).2 (writes (history ++ [request])) := by
  cases request with
  | put key value =>
      rw [writes_append_of_write rfl]
      exact once.put holds allowed.isKey (allowed.keepable _ rfl)
  | putFlag key value =>
      rw [writes_append_of_write rfl]
      exact once.put holds allowed.isKey (allowed.keepable _ rfl)
  | get key =>
      have hGet := once.get holds (show Directory.isKey key = true from allowed.isKey)
      rw [writes_append_of_read rfl]
      exact ⟨congrArg (Except.map Reply.value) hGet, holds⟩
  | getFlag key =>
      have hFlag := once.getFlag holds (show Directory.isKey key = true from allowed.isKey)
      rw [writes_append_of_read rfl]
      exact ⟨congrArg (Except.map Reply.flag) hFlag, holds⟩
  | check key =>
      have hFlag := once.getFlag holds (show Directory.isKey key = true from allowed.isKey)
      rw [writes_append_of_read rfl]
      have hCheck : store.check s key = answerCheck key (firstWritten history key) :=
        congrArg (Except.map Verdict.ofChanges) hFlag
      exact ⟨congrArg (Except.map Reply.verdict) hCheck, holds⟩

/-- Every request is answered by the requests before it. -/
theorem WritesOnce.serveAll (once : store.WritesOnce Holds) (holds : Holds s (writes history))
    (allowed : ∀ request ∈ requests, request.Allowed) {i : Nat}
    (hAt : requests[i]? = some request) :
    (store.serveAll s requests).1[i]? = some (answer (history ++ requests.take i) request) := by
  induction requests generalizing s history i with
  | nil => cases hAt
  | cons first rest ih =>
      obtain ⟨hFirst, hRest⟩ := List.forall_mem_cons.mp allowed
      obtain ⟨hAnswer, hHolds⟩ := once.serve holds hFirst
      cases i with
      | zero =>
          obtain rfl := Option.some.inj hAt
          simpa [Store.serveAll] using hAnswer
      | succ i =>
          have hLater := ih hHolds hRest hAt
          simpa [Store.serveAll] using hLater

end

/-- A later write of a key changes nothing. -/
theorem lookup_append_of_some {entries : List (String × Json)} {key : String} {first : Json}
    (h : entries.lookup key = some first) (value : Json) (other : String) :
    (entries ++ [(key, value)]).lookup other = entries.lookup other := by
  by_cases hOther : other = key
  · rw [hOther, List.lookup_append, h, Option.some_or]
  · have hKeys : (other == key) = false := by simpa using hOther
    rw [List.lookup_append, List.lookup_cons, hKeys, List.lookup_nil, Option.or_none]

/-- The first write of a key gives it its value, and changes no other one. -/
theorem lookup_append_of_none {entries : List (String × Json)} {key : String}
    (h : entries.lookup key = none) (value : Json) (other : String) :
    (entries ++ [(key, value)]).lookup other =
      if other = key then some value else entries.lookup other := by
  by_cases hOther : other = key
  · rw [if_pos hOther, hOther, List.lookup_append, h, Option.none_or, List.lookup_cons_self]
  · have hKeys : (other == key) = false := by simpa using hOther
    rw [if_neg hOther, List.lookup_append, List.lookup_cons, hKeys, List.lookup_nil, Option.or_none]

/-- The store in memory is a write-once map. -/
theorem memory_writesOnce :
    memory.WritesOnce fun t entries => ∀ key, t.get? key = entries.lookup key where
  get := by
    intro t entries key holds hKey
    simp only [memory, holds key]
    cases entries.lookup key <;> rfl
  put := by
    intro t entries key value holds hKey keepable
    simp only [memory, Table.contains, holds key]
    cases hFirst : entries.lookup key with
    | some first =>
        refine ⟨rfl, fun other => ?_⟩
        rw [lookup_append_of_some hFirst]
        exact holds other
    | none =>
        refine ⟨rfl, fun other => ?_⟩
        rw [lookup_append_of_none hFirst]
        by_cases hKeys : other = key
        · rw [if_pos hKeys, hKeys]
          exact Table.get?_insert_self t key value
        · rw [if_neg hKeys]
          exact (Table.get?_insert_of_ne t value hKeys).trans (holds other)

end Store

namespace Directory

theorem entryName_injective {key other : String} (h : entryName key = entryName other) :
    key = other := by
  have hChars := congrArg String.toList h
  simp only [entryName, String.toList_append] at hChars
  exact String.toList_injective (List.append_cancel_right hChars)

/-- Filling a staging file changes no file of a key. -/
theorem get?_staged (tag : Uuid) (files : Files) (key : String) (value : Json) {other : String}
    (hOther : isKey other = true) :
    (staged tag files key value).get? (entryName other) = files.get? (entryName other) := by
  have hNe := entryName_ne_stagingName hOther key tag
  rw [staged, Table.get?_insert_of_ne _ _ hNe, Table.get?_insert_of_ne _ _ hNe]

end Directory

@[simp] theorem Root.directory_setDirectory (root : Root) (run : RunId) (dir : Directory) :
    (root.setDirectory run dir).directory run = dir := by
  cases dir with
  | none => exact Table.get?_erase_self _ _
  | some files => exact Table.get?_insert_self _ _ _

namespace Store

/-- The directory of a run holds entries: for each key the text of its first value, and no file for
any other key. -/
structure HoldsTexts (run : RunId) (root : Root) (entries : List (String × Json)) : Prop where
  files : ∃ files, root.directory run = some files ∧ ∀ key, Directory.isKey key = true →
    files.get? (Directory.entryName key) = (entries.lookup key).map (·.sorted.compact)
  keepable : ∀ entry ∈ entries, Keepable entry.2

/-- The directory of a run is a write-once map. -/
theorem run_writesOnce (run : RunId) : (Store.run run).WritesOnce (HoldsTexts run) where
  get := by
    rintro root entries key ⟨⟨files, hDirectory, hFiles⟩, keepable⟩ hKey
    simp only [Store.run, Store.directory, Directory.get, hKey, hDirectory, Option.bind_some,
      hFiles key hKey, if_true]
    cases hFirst : entries.lookup key with
    | none => rfl
    | some value =>
        obtain ⟨_, _, rfl, -⟩ := List.lookup_eq_some_iff.mp hFirst
        have hValue : Keepable value := keepable (key, value) (by simp)
        simp only [Option.map_some, hValue.parse?_compact]
        rfl
  put := by
    rintro root entries key value ⟨⟨files, hDirectory, hFiles⟩, keepable⟩ hKey hValue
    have hMore : ∀ entry ∈ entries ++ [(key, value)], Keepable entry.2 := by
      intro entry hMem
      rcases List.mem_append.mp hMem with hOld | hNew
      · exact keepable entry hOld
      · rwa [List.mem_singleton.mp hNew]
    have hEntry := hFiles key hKey
    simp only [Store.run, Store.directory, hDirectory, Directory.put_some _ _ _ hKey,
      Table.contains, hEntry, Option.isSome_map]
    cases hFirst : entries.lookup key with
    | some first =>
        refine ⟨rfl, ⟨_, Root.directory_setDirectory _ _ _, fun other hOther => ?_⟩, hMore⟩
        rw [lookup_append_of_some hFirst, ← hFiles other hOther, Table.get?_erase_of_ne _
          (Directory.entryName_ne_stagingName hOther key _), Directory.get?_staged _ _ _ _ hOther]
    | none =>
        refine ⟨rfl, ⟨_, Root.directory_setDirectory _ _ _, fun other hOther => ?_⟩, hMore⟩
        rw [lookup_append_of_none hFirst, Table.get?_erase_of_ne _
          (Directory.entryName_ne_stagingName hOther key _)]
        split
        · next hKeys => rw [hKeys, Table.get?_insert_self, Option.map_some]
        · next hKeys =>
            rw [Table.get?_insert_of_ne _ _ fun h => hKeys (Directory.entryName_injective h),
              Directory.get?_staged _ _ _ _ hOther, hFiles other hOther]

/-- Opening the directory of a run once more changes nothing in it. -/
theorem HoldsTexts.openRun {run : RunId} {root : Root} {entries : List (String × Json)}
    (holds : HoldsTexts run root entries) : HoldsTexts run (root.openRun run) entries := by
  obtain ⟨⟨files, hDirectory, hFiles⟩, keepable⟩ := holds
  refine ⟨⟨files, ?_, hFiles⟩, keepable⟩
  rw [Root.openRun, Root.directory_setDirectory, hDirectory, Option.getD_some]

/-- A directory that has just been opened holds nothing, if it had no file of a key. -/
theorem holdsTexts_openRun {run : RunId} {root : Root}
    (hFresh : ∀ key, Directory.isKey key = true → root.text? run key = none) :
    HoldsTexts run (root.openRun run) [] := by
  refine ⟨⟨_, Root.directory_setDirectory _ _ _, fun key hKey => ?_⟩, nofun⟩
  have hNone := hFresh key hKey
  rw [Root.text?] at hNone
  rw [List.lookup_nil, Option.map_none]
  cases hDirectory : root.directory run with
  | none =>
      rw [Option.getD_none]
      rfl
  | some files =>
      rw [hDirectory, Option.bind_some] at hNone
      rw [Option.getD_some]
      exact hNone

end Store

namespace Root

/-- The requests to the store among those to a directory. -/
def calls (session : List Request) : List Store.Request :=
  session.filterMap fun
    | .store request => some request
    | _ => none

/-- What is done by handles to the directory of a run: they are opened, each whenever it is needed,
and make requests. Which handle makes which request does not matter to the directory. -/
inductive Handled : Request → Prop where
  | openRun : Handled .openRun
  | store {request : Store.Request} (allowed : request.Allowed) : Handled (.store request)

open Store

/-- Every request of a session is answered by the requests before it. -/
theorem serveAll_answer {run : RunId} {root : Root} {history : List Store.Request}
    {session : List Request} {i : Nat} {request : Store.Request}
    (holds : HoldsTexts run root (writes history)) (hSession : ∀ step ∈ session, Handled step)
    (hAt : session[i]? = some (.store request)) :
    (root.serveAll (session.map (run, ·))).1[i]? =
      some (answer (history ++ calls (session.take i)) request) := by
  induction session generalizing root history i with
  | nil => cases hAt
  | cons step rest ih =>
      obtain ⟨hFirst, hRest⟩ := List.forall_mem_cons.mp hSession
      cases hFirst with
      | openRun =>
          cases i with
          | zero => cases hAt
          | succ i => simpa [Root.serveAll, Root.serve, calls] using ih holds.openRun hRest hAt
      | store allowed =>
          obtain ⟨hAnswer, hHolds⟩ := (run_writesOnce run).serve holds allowed
          cases i with
          | zero =>
              cases hAt
              simpa [Root.serveAll, Root.serve, calls] using hAnswer
          | succ i => simpa [Root.serveAll, Root.serve, calls] using ih hHolds hRest hAt

theorem calls_eq_append {session : List Request} {i : Nat} {request : Store.Request}
    (hAt : session[i]? = some (.store request)) :
    calls session = calls (session.take i) ++ request :: calls (session.drop (i + 1)) := by
  obtain ⟨hLt, hEq⟩ := List.getElem?_eq_some_iff.mp hAt
  have hSplit : session.take i ++ .store request :: session.drop (i + 1) = session := by
    rw [← hEq, ← List.drop_eq_getElem_cons hLt, List.take_append_drop]
  have hCalls := congrArg calls hSplit
  rw [calls, List.filterMap_append, List.filterMap_cons] at hCalls
  exact hCalls.symm

theorem allowed_of_mem_calls {session : List Request} (hSession : ∀ step ∈ session, Handled step)
    {request : Store.Request} (hMem : request ∈ calls session) : request.Allowed := by
  obtain ⟨step, hStep, hCall⟩ := List.mem_filterMap.mp hMem
  cases hSession step hStep with
  | openRun => cases hCall
  | store allowed =>
      cases hCall
      exact allowed

end Root

namespace Store

/-- Both stores are the same write-once map. A request to the handles of a run, whichever were
opened before, is answered as the requests before it say: a key has the value it was given first.
The store in memory gives the same answer at the same place. -/
theorem stores_agree {run : RunId} {root : Root}
    (hFresh : ∀ key, Directory.isKey key = true → root.text? run key = none)
    {session : List Root.Request} (hSession : ∀ step ∈ session, Root.Handled step)
    {i : Nat} {request : Request} (hAt : session[i]? = some (.store request)) :
    ((root.openRun run).serveAll (session.map (run, ·))).1[i]? =
        some (answer (Root.calls (session.take i)) request) ∧
      (memory.serveAll ∅ (Root.calls session)).1[(Root.calls (session.take i)).length]? =
        some (answer (Root.calls (session.take i)) request) := by
  have hFiles := @Root.serveAll_answer run _ [] session i request (holdsTexts_openRun hFresh)
    hSession hAt
  have hCall : (Root.calls session)[(Root.calls (session.take i)).length]? = some request := by
    rw [Root.calls_eq_append hAt, List.getElem?_append_right (Nat.le_refl _), Nat.sub_self]
    rfl
  have hEmpty : ∀ key, (∅ : Table Json).get? key = (writes []).lookup key := Table.get?_empty
  have hMemory := memory_writesOnce.serveAll hEmpty
    (fun _ => Root.allowed_of_mem_calls hSession) hCall
  have hBefore : (Root.calls session).take (Root.calls (session.take i)).length =
      Root.calls (session.take i) := by
    rw [Root.calls_eq_append hAt, List.take_left]
  rw [hBefore] at hMemory
  exact ⟨hFiles, hMemory⟩

/-- A value with a name and a text that are escaped, and with the greatest and the least number. -/
def sampleValue : Json :=
  .object [("\"", .array [.int 18446744073709551615, .int (-9223372036854775808)]),
    ("b", .string "\n\\")]

/-- Two handles, of which the second is refused its write and reads what the first one wrote. -/
def sampleSession : List Root.Request :=
  [.store (.put "key" sampleValue), .openRun, .store (.put "key" .null),
    .store (.putFlag "flag" true), .store (.get "key")]

theorem keepable_sampleValue : Keepable sampleValue where
  whole := .object <| List.forall_mem_cons.mpr
    ⟨.array <| List.forall_mem_cons.mpr
      ⟨.number (by decide), List.forall_mem_singleton.mpr (.number (by decide))⟩,
      List.forall_mem_singleton.mpr (.string _)⟩
  ordered := .object (by decide) <| List.forall_mem_cons.mpr
    ⟨.array <| List.forall_mem_cons.mpr ⟨.number _, List.forall_mem_singleton.mpr (.number _)⟩,
      List.forall_mem_singleton.mpr (.string _)⟩
  depth_le := by decide

/-- What the first handle wrote is read by the second one, as from memory. -/
theorem sample_value_read_back :
    ((({} : Root).openRun ⟨Uuid.ofNat 7⟩).serveAll
        (sampleSession.map (⟨Uuid.ofNat 7⟩, ·))).1[4]? = some (.ok (.value sampleValue)) ∧
      (memory.serveAll ∅ (Root.calls sampleSession)).1[3]? = some (.ok (.value sampleValue)) := by
  have hKey : Directory.isKey "key" = true := by decide +kernel
  have hFlag : Directory.isKey "flag" = true := by decide +kernel
  have hSession : ∀ step ∈ sampleSession, Root.Handled step := by
    simp only [sampleSession, List.forall_mem_cons, List.not_mem_nil, false_implies, implies_true,
      and_true]
    exact ⟨.store ⟨hKey, fun _ h => Option.some.inj h ▸ keepable_sampleValue⟩, .openRun,
      .store ⟨hKey, fun _ h => Option.some.inj h ▸ ⟨.null, .null, Nat.zero_le _⟩⟩,
      .store ⟨hFlag, fun _ h => Option.some.inj h ▸ .bool true⟩, .store ⟨hKey, nofun⟩⟩
  have hAt : sampleSession[4]? = some (.store (.get "key")) := rfl
  exact stores_agree (fun _ _ => rfl) hSession hAt

end Store

end ChangeGate
