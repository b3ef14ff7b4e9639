import ChangeGate.Proofs.Store.WriteSteps

/-! One key that several runs want to write, each through its own handle to what they share: the
store in memory, or the directory of a run, in which a write is a sequence of steps that others may
come between. Either way the key comes to be held by one of the runs, and stays so: that run alone
is told that it has written, everybody reads its value, and every other run is told that the key is
taken. -/

namespace ChangeGate

variable {ι σ : Type}

/-- What runs share: a handle for each of them, and what a write of a truth value that one of them
has begun may do before it returns. -/
structure Medium (ι σ : Type) where
  handle : ι → Store σ
  drift : ι → String → Bool → σ → σ → Prop

/-- Who holds a key after something that a run has done: who held it before, or that run if nobody
did. -/
def Takes (i : ι) (holder holder' : Option ι) : Prop :=
  holder' = holder ∨ (holder = none ∧ holder' = some i)

namespace Takes

variable {i j : ι} {holder holder' holder'' : Option ι}

theorem refl (i : ι) (holder : Option ι) : Takes i holder holder := .inl rfl

theorem trans (first : Takes i holder holder') (second : Takes i holder' holder'') :
    Takes i holder holder'' := by
  rcases first with rfl | ⟨hFree, rfl⟩
  · exact second
  · rcases second with rfl | ⟨hFree', -⟩
    · exact .inr ⟨hFree, rfl⟩
    · cases hFree'

theorem kept (takes : Takes i holder holder') (hHolder : holder = some j) : holder' = some j := by
  rcases takes with rfl | ⟨hFree, -⟩
  · exact hHolder
  · rw [hFree] at hHolder
    cases hHolder

theorem other (takes : Takes i holder holder') (hNe : j ≠ i) (hHolder : holder ≠ some j) :
    holder' ≠ some j := by
  rcases takes with rfl | ⟨-, rfl⟩
  · exact hHolder
  · exact fun h => hNe (Option.some.inj h).symm

end Takes

/-- What everybody reads under a key, going by who holds it. -/
def heldValue (key : String) (flags : ι → Bool) : Option ι → Except Error Json
  | none => .error (.decisionNotFound key)
  | some j => .ok (.bool (flags j))

/-- A medium in which one key is contested. `Holds` relates a state to who holds the key and to the
runs whose writes have not returned; each run has one truth value to write. -/
structure Medium.Contests [DecidableEq ι] (medium : Medium ι σ) (key : String) (flags : ι → Bool)
    (Holds : σ → Option ι → Set ι → Prop) : Prop where
  /-- Everybody reads the value of the run that holds the key. -/
  get : ∀ {s holder waiting}, Holds s holder waiting → ∀ i,
    (medium.handle i).get s key = heldValue key flags holder
  /-- A write that is going on may bring its run to hold the key. -/
  drift : ∀ {s t holder waiting i}, Holds s holder waiting → i ∈ waiting →
    medium.drift i key (flags i) s t → ∃ holder', Takes i holder holder' ∧ Holds t holder' waiting
  /-- When a write has returned, somebody holds the key, and the write has succeeded if its own run
  does. -/
  put : ∀ {s holder waiting i}, Holds s holder waiting → i ∈ waiting →
    ∃ holder', Takes i holder holder' ∧ holder' ≠ none ∧
      ((medium.handle i).putFlag s key (flags i)).1 =
        (if holder' = some i then .ok () else .error (.duplicateWrite key)) ∧
      Holds ((medium.handle i).putFlag s key (flags i)).2 holder' {j ∈ waiting | j ≠ i}
  /-- A run need not write. -/
  fewer : ∀ {s holder waiting waiting'}, Holds s holder waiting → waiting' ⊆ waiting →
    Holds s holder waiting'

namespace Medium

/-- The store in memory, shared as one object. -/
def memory : Medium ι (Table Json) where
  handle := fun _ => Store.memory
  drift := fun _ _ _ _ _ => False

/-- In memory a write is one step. -/
theorem memory_contests [DecidableEq ι] (key : String) (flags : ι → Bool) :
    (memory : Medium ι (Table Json)).Contests key flags fun t holder waiting =>
      t.get? key = holder.map (fun j => .bool (flags j)) ∧ ∀ i, holder = some i → i ∉ waiting where
  get := by
    rintro t holder waiting ⟨hValue, -⟩ i
    cases holder with
    | none => exact Store.get?_of_memory_absent.mpr hValue
    | some j => exact Store.get?_of_memory_get.mpr hValue
  drift := fun _ _ hDrift => hDrift.elim
  put := by
    rintro t holder waiting i ⟨hValue, hReturned⟩ hWaiting
    cases holder with
    | some j =>
        have hNe : j ≠ i := fun hSame => hReturned j rfl (hSame ▸ hWaiting)
        have hTaken : t.contains key = true := by simp [Table.contains, hValue]
        refine ⟨some j, .refl i _, Option.some_ne_none j, ?_, ?_, ?_⟩
        · simp [memory, Store.putFlag, Store.memory, hTaken, hNe]
        · simpa [memory, Store.putFlag, Store.memory, hTaken] using hValue
        · rintro k hk ⟨hk', -⟩
          exact hReturned k hk hk'
    | none =>
        have hFree : t.contains key = false := by simp [Table.contains, hValue]
        refine ⟨some i, .inr ⟨rfl, rfl⟩, Option.some_ne_none i, ?_, ?_, ?_⟩
        · simp [memory, Store.putFlag, Store.memory, hFree]
        · simp [memory, Store.putFlag, Store.memory, hFree]
        · rintro k hk ⟨-, hNe⟩
          exact hNe (Option.some.inj hk).symm
  fewer := by
    rintro t holder waiting waiting' ⟨hValue, hReturned⟩ hFewer
    exact ⟨hValue, fun i hi hMem => hReturned i hi (hFewer hMem)⟩

end Medium

namespace Directory

namespace Traffic

variable [DecidableEq ι] (c : Traffic ι) (i : ι)

/-- Several steps of one write, with nobody else acting between them. -/
def steps (n : Nat) : Traffic ι where
  dir := ((c.writes i).steps c.dir n).2
  writes := Function.update c.writes i ((c.writes i).steps c.dir n).1

theorem steps_zero : c.steps i 0 = c := by
  simp [steps, Write.steps]

theorem steps_succ (n : Nat) : (c.step i).steps i n = c.steps i (n + 1) := by
  simp [steps, step, Write.steps]

theorem writes_steps_self (n : Nat) :
    (c.steps i n).writes i = ((c.writes i).steps c.dir n).1 := Function.update_self ..

theorem writes_steps_of_ne (n : Nat) {j : ι} (hNe : j ≠ i) :
    (c.steps i n).writes j = c.writes j := Function.update_of_ne hNe ..

end Traffic

def Phase.rank : Phase → Nat
  | .create => 4
  | .fill => 3
  | .link => 2
  | .remove _ => 1
  | .done _ => 0

theorem Phase.rank_le (phase : Phase) : phase.rank ≤ 4 := by
  cases phase <;> simp [rank]

theorem Phase.exists_of_rank {phase : Phase} (h : phase.rank = 0) :
    ∃ result, phase = .done result := by
  cases phase <;> first | exact ⟨_, rfl⟩ | cases h

namespace Write

/-- What is left of a write, with nobody else acting between its steps. -/
def finish (w : Write) (dir : Directory) : Except Error Unit × Directory :=
  let (w, dir) := w.steps dir 4
  (w.result?.getD (.ok ()), dir)

theorem rank_step (w : Write) (dir : Directory) :
    (w.step dir).1.phase.rank ≤ w.phase.rank - 1 := by
  obtain ⟨key, tag, text, phase⟩ := w
  cases phase <;> cases dir <;> simp [step, Phase.rank]

theorem rank_steps (w : Write) (dir : Directory) (n : Nat) :
    (w.steps dir n).1.phase.rank ≤ w.phase.rank - n := by
  induction n generalizing w dir with
  | zero => exact Nat.le_refl _
  | succ n ih =>
      have hFirst := w.rank_step dir
      have hRest := ih (w.step dir).1 (w.step dir).2
      change ((w.step dir).1.steps (w.step dir).2 n).1.phase.rank ≤ _
      omega

/-- Four steps end a write, wherever it stands. -/
theorem exists_result (w : Write) (dir : Directory) :
    ∃ result, (w.steps dir 4).1.phase = .done result := by
  have hRank := w.rank_steps dir 4
  have hMost := w.phase.rank_le
  exact Phase.exists_of_rank (by omega)

end Write

theorem put_eq_finish {key : String} (tag : Uuid) (dir : Directory) (value : Json)
    (hKey : isKey key = true) :
    put tag dir key value = ((Call.mk key value tag).write .create).finish dir := if_pos hKey

/-- The directory shows who holds a key, and where the writes that have not returned stand. -/
structure Held (calls : ι → Call) (key : String) (c : Traffic ι) (holder : Option ι)
    (waiting : Set ι) (files : Files) : Prop extends Stand calls waiting c files where
  entry_eq : files.get? (entryName key) = holder.map fun j => (calls j).text
  linked_iff : ∀ i ∈ waiting, (c.writes i).Linked ↔ holder = some i

namespace Held

variable {calls : ι → Call} {key : String} {c d : Traffic ι} {holder : Option ι}
  {waiting waiting' : Set ι} {files : Files} {i : ι}

theorem get_eq (held : Held calls key c holder waiting files) (hKey : isKey key = true)
    {flags : ι → Bool} (hValues : ∀ j, (calls j).value = .bool (flags j)) :
    get c.dir key = heldValue key flags holder := by
  cases holder with
  | none =>
      have hEntry : c.dir.bind (·.get? (entryName key)) = none := by
        rw [held.dir_eq]
        exact held.entry_eq
      exact get_of_absent hKey hEntry
  | some j =>
      have hEntry : c.dir.bind (·.get? (entryName key)) = some (calls j).text := by
        rw [held.dir_eq]
        exact held.entry_eq
      rw [get_of_text hKey hEntry, reading, Call.text, hValues, parse?_bool]
      rfl

/-- Nothing but the directory and the writes that have not returned counts. -/
theorem of_eq (held : Held calls key c holder waiting files) (hFewer : waiting' ⊆ waiting)
    (hDir : d.dir = c.dir) (hWrites : ∀ j ∈ waiting', d.writes j = c.writes j) :
    Held calls key d holder waiting' files where
  dir_eq := hDir.trans held.dir_eq
  write_eq := fun j hj => hWrites j hj ▸ held.write_eq j (hFewer hj)
  stands := fun j hj => hWrites j hj ▸ held.stands j (hFewer hj)
  entry_eq := held.entry_eq
  linked_iff := fun j hj => hWrites j hj ▸ held.linked_iff j (hFewer hj)

variable [DecidableEq ι] (hCalls : ∀ j, (calls j).key = key) (hKey : isKey key = true)
  (hTags : Function.Injective fun j => (calls j).tag)

include hCalls hKey hTags

/-- One step of a write that has not returned: if it makes the file of the key, its run holds the
key from then on. -/
theorem step (held : Held calls key c holder waiting files) (hWaiting : i ∈ waiting) :
    ∃ holder' files', Takes i holder holder' ∧
      Held calls key (c.step i) holder' waiting files' := by
  obtain ⟨files', move, stand⟩ :=
    held.toStand.step (fun j _ => by rw [hCalls]; exact hKey) hTags hWaiting
  have hKeyI : (c.writes i).key = key := (held.key_eq hWaiting).trans (hCalls i)
  have hOther : ∀ j ∈ waiting, j ≠ i →
      (((c.step i).writes j).Linked ↔ holder = some j) := by
    intro j hj hNe
    rw [c.writes_step_of_ne i hNe]
    exact held.linked_iff j hj
  by_cases hNew : ((c.step i).writes i).Linked ∧ ¬ (c.writes i).Linked
  · -- the write has just made the file, so there was none
    have hFree := (move.linked_cases hNew.1).resolve_left hNew.2
    rw [Write.entry, hKeyI, held.entry_eq, Option.map_eq_none_iff] at hFree
    subst hFree
    refine ⟨some i, files', .inr ⟨rfl, rfl⟩, stand, ?_, fun j hj => ?_⟩
    · rw [← hCalls i]
      exact stand.get?_of_linked hWaiting hNew.1
    · by_cases hSame : j = i
      · subst hSame
        exact iff_of_true hNew.1 rfl
      · rw [hOther j hj hSame]
        exact iff_of_false (Option.some_ne_none j).symm fun h => hSame (Option.some.inj h).symm
  · have hLinked : ((c.step i).writes i).Linked ↔ (c.writes i).Linked := by
      constructor
      · intro linked
        by_contra hOld
        exact hNew ⟨linked, hOld⟩
      · exact move.linked_mono
    refine ⟨holder, files', .refl i holder, stand, ?_, fun j hj => ?_⟩
    · rw [← held.entry_eq]
      exact move.entry_eq hKey hLinked.mp
    · by_cases hSame : j = i
      · subst hSame
        rw [hLinked]
        exact held.linked_iff j hj
      · exact hOther j hj hSame

/-- Several steps of a write, with nobody else acting between them. -/
theorem steps (held : Held calls key c holder waiting files) (hWaiting : i ∈ waiting) (n : Nat) :
    ∃ holder' files', Takes i holder holder' ∧
      Held calls key (c.steps i n) holder' waiting files' := by
  induction n generalizing c holder files with
  | zero =>
      refine ⟨holder, files, .refl i holder, ?_⟩
      rwa [c.steps_zero]
  | succ n ih =>
      obtain ⟨holder', files', takes, next⟩ := held.step hCalls hKey hTags hWaiting
      obtain ⟨holder'', files'', takes', last⟩ := ih next
      exact ⟨holder'', files'', takes.trans takes', c.steps_succ i n ▸ last⟩

/-- When a write has returned, it or an earlier one has made the file of the key. -/
theorem finish (held : Held calls key c holder waiting files) (hWaiting : i ∈ waiting) :
    ∃ holder' files', Takes i holder holder' ∧ holder' ≠ none ∧
      ((c.writes i).finish c.dir).1 =
        (if holder' = some i then .ok () else .error (.duplicateWrite key)) ∧
      Held calls key (c.steps i 4) holder' waiting files' := by
  obtain ⟨holder', files', takes, last⟩ := held.steps hCalls hKey hTags hWaiting 4
  obtain ⟨result, hDone⟩ := (c.writes i).exists_result c.dir
  have hLast : ((c.steps i 4).writes i).result? = some result := by
    rw [c.writes_steps_self, Write.result?, hDone]
  have hResult : ((c.writes i).finish c.dir).1 = result := by
    simp [Write.finish, Write.result?, hDone]
  have hLinked := last.linked_iff i hWaiting
  have hKeyI : ((c.steps i 4).writes i).key = key := (last.key_eq hWaiting).trans (hCalls i)
  obtain ⟨hCases, hThere⟩ := (last.stands i hWaiting).result_cases hLast
  refine ⟨holder', files', takes, ?_, ?_, last⟩
  · rintro rfl
    rw [Write.entry, hKeyI, Table.contains, last.entry_eq] at hThere
    cases hThere
  · rw [hResult]
    rcases hCases with ⟨rfl, linked⟩ | ⟨rfl, hUnlinked⟩
    · rw [if_pos (hLinked.mp linked)]
    · rw [if_neg (mt hLinked.mpr hUnlinked), hKeyI]

end Held

end Directory

/-- The directory of a run with the writes that have begun and not returned, of each handle at most
one. -/
structure Shared (ι : Type) where
  dir : Directory
  pending : ι → Option Directory.Write

namespace Shared

open Directory (Call Traffic Write)

/-- Where the write of a call stands, which a handle may have begun. -/
def write (s : Shared ι) (i : ι) (call : Call) : Write := (s.pending i).getD (call.write .create)

/-- The directory with the writes of some calls. -/
def traffic (s : Shared ι) (calls : ι → Call) : Traffic ι := ⟨s.dir, fun i => s.write i (calls i)⟩

variable [DecidableEq ι]

def step (s : Shared ι) (i : ι) (call : Call) : Shared ι where
  dir := ((s.write i call).step s.dir).2
  pending := Function.update s.pending i (some ((s.write i call).step s.dir).1)

theorem write_update_of_ne (s : Shared ι) (dir : Directory) (w : Option Write) (call : Call)
    {i j : ι} (hNe : j ≠ i) :
    (Shared.mk dir (Function.update s.pending i w)).write j call = s.write j call := by
  simp [write, Function.update_of_ne hNe]

theorem traffic_step (s : Shared ι) (calls : ι → Call) (i : ι) :
    (s.step i (calls i)).traffic calls = (s.traffic calls).step i := by
  simp only [traffic, Traffic.step, Traffic.mk.injEq]
  refine ⟨rfl, funext fun j => ?_⟩
  by_cases hj : j = i
  · subst hj
    simp [step, write]
  · rw [Function.update_of_ne hj]
    exact s.write_update_of_ne _ _ _ hj

end Shared

/-- The directory of a run, each handle with a tag for the staging file of its write. Of a write
that a run has begun only the steps that are left remain to be taken when it returns. -/
def Medium.directory [DecidableEq ι] (tags : ι → Uuid) : Medium ι (Shared ι) where
  handle := fun i =>
    { put := fun s key value =>
        let (result, dir) :=
          match s.pending i with
          | none => Directory.put (tags i) s.dir key value
          | some w => w.finish s.dir
        (result, ⟨dir, Function.update s.pending i none⟩)
      get := fun s key => Directory.get s.dir key }
  drift := fun i key flag s t =>
    Directory.isKey key = true ∧ t = s.step i ⟨key, .bool flag, tags i⟩

namespace Medium

variable [DecidableEq ι]

/-- In a directory a write is a sequence of steps, of which one makes its run hold the key. -/
theorem directory_contests {tags : ι → Uuid} (hTags : Function.Injective tags) {key : String}
    (hKey : Directory.isKey key = true) (flags : ι → Bool) :
    (directory tags).Contests key flags fun s holder waiting => ∃ files,
      Directory.Held (fun j => ⟨key, .bool (flags j), tags j⟩) key
        (s.traffic fun j => ⟨key, .bool (flags j), tags j⟩) holder waiting files where
  get := by
    rintro s holder waiting ⟨files, held⟩ i
    exact held.get_eq hKey fun _ => rfl
  drift := by
    rintro s t holder waiting i ⟨files, held⟩ hWaiting ⟨-, rfl⟩
    obtain ⟨holder', files', takes, next⟩ :=
      held.step (by exact fun _ => rfl) hKey hTags hWaiting
    rw [← s.traffic_step] at next
    exact ⟨holder', takes, files', next⟩
  put := by
    rintro s holder waiting i ⟨files, held⟩ hWaiting
    obtain ⟨holder', files', takes, hHeld, hResult, last⟩ :=
      held.finish (by exact fun _ => rfl) hKey hTags hWaiting
    have hPut : ((directory tags).handle i).putFlag s key (flags i) =
        (((s.write i ⟨key, .bool (flags i), tags i⟩).finish s.dir).1,
          ⟨((s.write i ⟨key, .bool (flags i), tags i⟩).finish s.dir).2,
            Function.update s.pending i none⟩) := by
      cases hPending : s.pending i with
      | none =>
          simp only [directory, Store.putFlag, hPending, Shared.write, Option.getD_none,
            Directory.put_eq_finish _ _ _ hKey]
      | some w => simp only [directory, Store.putFlag, hPending, Shared.write, Option.getD_some]
    rw [hPut]
    refine ⟨holder', takes, hHeld, hResult, files', last.of_eq (Set.sep_subset _ _) rfl ?_⟩
    rintro j ⟨-, hNe⟩
    rw [Directory.Traffic.writes_steps_of_ne _ _ _ hNe]
    exact s.write_update_of_ne _ _ _ hNe
  fewer := by
    rintro s holder waiting waiting' ⟨files, held⟩ hFewer
    exact ⟨files, held.of_eq hFewer rfl fun _ _ => rfl⟩

/-- What runs are given whose decisions have one key: the store in memory, or a directory that has
been opened, in which the key has no value. -/
inductive Offered : {σ : Type} → Medium ι σ → σ → String → Prop where
  | memory {t : Table Json} {key : String} (hAbsent : t.get? key = none) : Offered memory t key
  | directory {files : Files} {tags : ι → Uuid} {key : String} (hTags : Function.Injective tags)
      (hKey : Directory.isKey key = true)
      (hAbsent : files.get? (Directory.entryName key) = none) :
      Offered (directory tags) ⟨some files, fun _ => none⟩ key

/-- At the start nobody holds the key. -/
theorem Offered.contests {medium : Medium ι σ} {s : σ} {key : String}
    (offered : Offered medium s key) (flags : ι → Bool) :
    ∃ Holds, medium.Contests key flags Holds ∧ Holds s none Set.univ := by
  cases offered with
  | memory hAbsent =>
      exact ⟨_, memory_contests key flags, hAbsent,
        fun i h => absurd h.symm (Option.some_ne_none i)⟩
  | @directory files tags key hTags hKey hAbsent =>
      refine ⟨_, directory_contests hTags hKey flags, files, ⟨rfl, fun i _ => ⟨_, rfl⟩,
        fun i _ => trivial⟩, hAbsent, fun i _ => iff_of_false ?_ (Option.some_ne_none i).symm⟩
      rintro (hPhase | hPhase) <;> cases hPhase

end Medium

end ChangeGate
