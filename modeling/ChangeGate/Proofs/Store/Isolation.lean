import ChangeGate.Proofs.Ident
import ChangeGate.Proofs.Store.WriteOnce

/-! Runs among others. What a request does to the directory of its run is settled by that directory,
and it does nothing to the directories of other runs, whose names differ: so a run that others go on
beside is answered as if it were alone, also while they are torn down. -/

namespace ChangeGate

namespace Table

variable {α : Type}

theorem erase_eq_self {t : Table α} {name : String} (h : t.get? name = none) :
    t.erase name = t := by
  obtain ⟨entries, nodup⟩ := t
  simp only [erase, mk.injEq, List.filter_eq_self, decide_eq_true_eq]
  rintro e hMem rfl
  simpa using List.lookup_eq_none_iff.mp h e hMem

theorem put_eq_self {name : String} {value : α} {entries : List (String × α)}
    (h : entries.lookup name = some value) : put name value entries = entries := by
  induction entries with
  | nil => cases h
  | cons e rest ih =>
      obtain ⟨k, v⟩ := e
      by_cases hName : k = name
      · subst hName
        rw [List.lookup_cons_self] at h
        simp [put, Option.some.inj h]
      · have hKey : (name == k) = false := by simpa using Ne.symm hName
        rw [List.lookup_cons, hKey] at h
        simp [put, hName, ih h]

theorem insert_eq_self {t : Table α} {name : String} {value : α} (h : t.get? name = some value) :
    t.insert name value = t := by
  obtain ⟨entries, nodup⟩ := t
  simp only [insert, mk.injEq]
  exact put_eq_self h

end Table

/-- What a request to the directory of a run answers, and what it makes of that directory. -/
def Directory.serve (dir : Directory) : Root.Request → Except Error Store.Reply × Directory
  | .openRun => (.ok .written, some (dir.getD ∅))
  | .store request => Store.directory.serve dir request
  | .overwrite key text => (.ok .written, dir.map (·.insert (Directory.entryName key) text))
  | .teardown => (.ok .written, none)

/-- A directory that is gone stays so while nobody opens it. -/
theorem Directory.serve_none {request : Root.Request} (hOpen : request ≠ .openRun) :
    (Directory.serve none request).2 = none := by
  cases request with
  | openRun => exact absurd rfl hOpen
  | overwrite key text => rfl
  | teardown => rfl
  | store request =>
      have hPut : ∀ key value, (Store.directory.put none key value).2 = none := by
        intro key value
        cases hKey : Directory.isKey key with
        | true => simp only [Store.directory, Directory.put_none _ _ hKey]
        | false => simp [Store.directory, Directory.put, hKey]
      cases request with
      | put key value => exact hPut key value
      | putFlag key value => exact hPut key (.bool value)
      | get key => rfl
      | getFlag key => rfl
      | check key => rfl

namespace Root

variable {root alone : Root} {run other : RunId}

section Frame

variable (root : Root) (run : RunId) (dir : Directory)

theorem directory_setDirectory_of_ne (hNe : other ≠ run) :
    (root.setDirectory run dir).directory other = root.directory other := by
  have hText : other.text ≠ run.text := fun h => hNe (Ident.text_injective h)
  cases dir with
  | none => exact Table.get?_erase_of_ne _ hText
  | some files => exact Table.get?_insert_of_ne _ _ hText

/-- Putting a directory in its own place changes nothing. -/
theorem setDirectory_directory : root.setDirectory run (root.directory run) = root := by
  cases hDirectory : root.directory run with
  | none => rw [setDirectory, Table.erase_eq_self hDirectory]
  | some files => rw [setDirectory, Table.insert_eq_self hDirectory]

end Frame

/-- A request to a store among others is one to the directory of its run. -/
theorem store_serve_eq (root : Root) (run : RunId) (request : Store.Request) :
    (Store.run run).serve root request =
      ((Store.directory.serve (root.directory run) request).1,
        root.setDirectory run (Store.directory.serve (root.directory run) request).2) := by
  cases request with
  | put key value => rfl
  | putFlag key value => rfl
  | get key => exact Prod.ext rfl (root.setDirectory_directory run).symm
  | getFlag key => exact Prod.ext rfl (root.setDirectory_directory run).symm
  | check key => exact Prod.ext rfl (root.setDirectory_directory run).symm

/-- A request is answered by the directory of its run, and changes no other one. -/
theorem serve_eq (root : Root) (run : RunId) (request : Request) :
    root.serve run request =
      (((root.directory run).serve request).1,
        root.setDirectory run ((root.directory run).serve request).2) := by
  cases request with
  | openRun => rfl
  | store request => exact root.store_serve_eq run request
  | overwrite key text => rfl
  | teardown =>
      rw [Root.serve, Root.teardown, Directory.teardown_eq]
      rfl

theorem directory_serve (root : Root) (run : RunId) (request : Request) :
    (root.serve run request).2.directory run = ((root.directory run).serve request).2 := by
  rw [serve_eq, directory_setDirectory]

theorem directory_serve_of_ne (root : Root) (request : Request) (hNe : other ≠ run) :
    (root.serve run request).2.directory other = root.directory other := by
  rw [serve_eq, directory_setDirectory_of_ne _ _ _ hNe]

theorem serveAll_append (root : Root) (before after : List (RunId × Request)) :
    (root.serveAll (before ++ after)).2 = ((root.serveAll before).2.serveAll after).2 := by
  induction before generalizing root with
  | nil => rfl
  | cons step rest ih => exact ih _

/-- The answers to the requests of a session that are addressed to one run. -/
def answersTo (run : RunId) (root : Root) (session : List (RunId × Request)) :
    List (Except Error Store.Reply) :=
  ((session.zip (root.serveAll session).1).filter (·.1.1 = run)).map (·.2)

theorem answersTo_cons (root : Root) (other : RunId) (request : Request)
    (rest : List (RunId × Request)) :
    answersTo run root ((other, request) :: rest) =
      if other = run then
        (root.serve other request).1 :: answersTo run (root.serve other request).2 rest
      else answersTo run (root.serve other request).2 rest := by
  by_cases hRun : other = run <;> simp [answersTo, serveAll, hRun]

/-- A session is answered to one run as the part of it that is addressed to that run. -/
theorem serveAll_filter (hSame : alone.directory run = root.directory run)
    (session : List (RunId × Request)) :
    answersTo run root session = (alone.serveAll (session.filter (·.1 = run))).1 ∧
      (root.serveAll session).2.directory run =
        (alone.serveAll (session.filter (·.1 = run))).2.directory run := by
  induction session generalizing root alone with
  | nil => exact ⟨rfl, hSame.symm⟩
  | cons step rest ih =>
      obtain ⟨other, request⟩ := step
      by_cases hRun : other = run
      · subst hRun
        have hNext : (alone.serve other request).2.directory other =
            (root.serve other request).2.directory other := by
          rw [directory_serve, directory_serve, hSame]
        have hAnswer : (alone.serve other request).1 = (root.serve other request).1 := by
          rw [serve_eq, serve_eq, hSame]
        obtain ⟨hAnswers, hDirectory⟩ := ih hNext
        rw [answersTo_cons, if_pos rfl, List.filter_cons_of_pos (by simp), hAnswers, ← hAnswer]
        exact ⟨rfl, hDirectory⟩
      · have hNext : alone.directory run = (root.serve other request).2.directory run := by
          rw [directory_serve_of_ne _ _ (Ne.symm hRun), hSame]
        rw [answersTo_cons, if_neg hRun, List.filter_cons_of_neg (by simpa using hRun)]
        exact ih hNext

/-- The directory of a run is gone. Through the handles that are left a key has no value, a write
fails and creates nothing, and a second teardown succeeds; opened again, the run has an empty
directory. -/
structure TornDown (root : Root) (run : RunId) : Prop where
  read : ∀ request : Store.Request, request.write? = none → Directory.isKey request.key = true →
    root.serve run (.store request) = (.error (.decisionNotFound request.key), root)
  write : ∀ request : Store.Request, request.write?.isSome = true →
    Directory.isKey request.key = true →
      root.serve run (.store request) = (.error (.io .notFound), root)
  teardown : root.serve run .teardown = (.ok .written, root)
  reopened : (root.serve run .openRun).2.directory run = some ∅

theorem TornDown.of_directory (hGone : root.directory run = none) : TornDown root run := by
  have hKept : root.setDirectory run none = root := hGone ▸ root.setDirectory_directory run
  refine ⟨fun request hRead hKey => ?_, fun request hWrite hKey => ?_, ?_, ?_⟩
  · have hGet : Store.directory.get none request.key = .error (.decisionNotFound request.key) := by
      simp [Store.directory, Directory.get, hKey]
    rw [serve, store_serve_eq, hGone]
    cases request with
    | put key value => cases hRead
    | putFlag key value => cases hRead
    | get key => exact Prod.ext (congrArg (Except.map Store.Reply.value) hGet) hKept
    | getFlag key =>
        refine Prod.ext ?_ hKept
        simp only [Store.serve, Store.getFlag, show Store.directory.get none key = _ from hGet]
        rfl
    | check key =>
        refine Prod.ext ?_ hKept
        simp only [Store.serve, Store.check, Store.getFlag,
          show Store.directory.get none key = _ from hGet]
        rfl
  · have hPut : ∀ value,
        Store.directory.put none request.key value = (.error (.io .notFound), none) :=
      fun value => Directory.put_none _ value hKey
    rw [serve, store_serve_eq, hGone]
    cases request with
    | put key value =>
        simp only [Store.serve, show Store.directory.put none key value = _ from hPut value, hKept]
        rfl
    | putFlag key value =>
        simp only [Store.serve, Store.putFlag,
          show Store.directory.put none key _ = _ from hPut (.bool value), hKept]
        rfl
    | get key => cases hWrite
    | getFlag key => cases hWrite
    | check key => cases hWrite
  · rw [serve_eq, hGone]
    exact Prod.ext rfl hKept
  · rw [directory_serve, hGone]
    rfl

/-- A directory that is gone stays so through requests of which none opens it. -/
theorem directory_serveAll_none (hGone : root.directory run = none)
    {session : List (RunId × Request)} (hClosed : (run, .openRun) ∉ session) :
    (root.serveAll session).2.directory run = none := by
  induction session generalizing root with
  | nil => exact hGone
  | cons step rest ih =>
      obtain ⟨other, request⟩ := step
      obtain ⟨hFirst, hRest⟩ := not_or.mp (mt List.mem_cons.mpr hClosed)
      have hNext : (root.serve other request).2.directory run = none := by
        by_cases hRun : other = run
        · subst hRun
          rw [directory_serve, hGone]
          exact Directory.serve_none fun h => hFirst (h ▸ rfl)
        · rw [directory_serve_of_ne _ _ (Ne.symm hRun), hGone]
      exact ih hNext hRest

/-- Runs under one root do not notice each other. The requests of any session that are addressed to
one run are answered as they are alone, and leave it the same files, whatever the requests to other
runs do, and whatever those had in their directories. Opening a run that is open makes no
difference, so its handles share all entries. From a teardown of the run until it is opened again
its directory is gone. -/
theorem runs_isolated (hSame : alone.directory run = root.directory run)
    (session : List (RunId × Request)) :
    answersTo run root session = (alone.serveAll (session.filter (·.1 = run))).1 ∧
      (root.serveAll session).2.directory run =
        (alone.serveAll (session.filter (·.1 = run))).2.directory run ∧
      (∀ files, (root.serveAll session).2.directory run = some files →
        (root.serveAll session).2.openRun run = (root.serveAll session).2) ∧
      ∀ before after, session = before ++ (run, .teardown) :: after → (run, .openRun) ∉ after →
        TornDown (root.serveAll session).2 run := by
  obtain ⟨hAnswers, hDirectory⟩ := serveAll_filter hSame session
  refine ⟨hAnswers, hDirectory, fun files hOpen => ?_, ?_⟩
  · rw [openRun, hOpen, Option.getD_some, ← hOpen, setDirectory_directory]
  · rintro before after rfl hClosed
    have hGone : ((root.serveAll before).2.serve run .teardown).2.directory run = none := by
      rw [directory_serve, Directory.serve]
    refine .of_directory ?_
    rw [serveAll_append]
    exact directory_serveAll_none hGone hClosed

/-- Two runs that write different values under one key, of which the first is torn down before the
second reads. -/
def sampleRuns : List (RunId × Request) :=
  [(⟨Uuid.ofNat 7⟩, .openRun), (⟨Uuid.ofNat 8⟩, .openRun),
    (⟨Uuid.ofNat 7⟩, .store (.putFlag "key" true)), (⟨Uuid.ofNat 8⟩, .store (.putFlag "key" false)),
    (⟨Uuid.ofNat 7⟩, .teardown), (⟨Uuid.ofNat 8⟩, .store (.getFlag "key"))]

/-- The second run reads its own value, and the directory of the first one is gone. -/
theorem sample_runs_apart :
    answersTo ⟨Uuid.ofNat 8⟩ {} sampleRuns = [.ok .written, .ok .written, .ok (.flag false)] ∧
      TornDown (({} : Root).serveAll sampleRuns).2 ⟨Uuid.ofNat 7⟩ := by
  obtain ⟨hAnswers, -, -, -⟩ := @runs_isolated {} {} ⟨Uuid.ofNat 8⟩ rfl sampleRuns
  obtain ⟨-, -, -, hGone⟩ := @runs_isolated {} {} ⟨Uuid.ofNat 7⟩ rfl sampleRuns
  have hAlone : (({} : Root).serveAll (sampleRuns.filter (·.1 = ⟨Uuid.ofNat 8⟩))).1 =
      [.ok .written, .ok .written, .ok (.flag false)] := by
    with_unfolding_all rfl
  have hClosed : (⟨Uuid.ofNat 7⟩, .openRun) ∉ sampleRuns.drop 5 := by simp [sampleRuns]
  exact ⟨hAnswers.trans hAlone, hGone (sampleRuns.take 4) (sampleRuns.drop 5) rfl hClosed⟩

end Root

end ChangeGate
