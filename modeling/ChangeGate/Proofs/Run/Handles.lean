import ChangeGate.Cancellation
import ChangeGate.Proofs.Run.Course

/-! Handles that cancel a run. A run looks at a signal; it is cancelled exactly if somebody has
cancelled with a handle that was connected to the signal at that time. Handles come from handles
only, so a signal that no handle is connected to is never cancelled, and neither is its run. -/

namespace ChangeGate

namespace Cancellation

variable {c d : Cancellation} {u : Use} {uses : List Use} {i signal group : Nat}

/-- All handles and signals belong to groups that there are. -/
structure Sound (c : Cancellation) : Prop where
  handles : ∀ group, some group ∈ c.handles → group < c.groups.length
  signals : ∀ group ∈ c.signals, group < c.groups.length

/-- A handle is there, and belongs to the group of a signal. -/
def Connected (c : Cancellation) (i signal : Nat) : Prop :=
  ∃ group, c.handles[i]? = some (some group) ∧ c.signals[signal]? = some group

/-- No handle is connected to a signal: all that were are gone. -/
def Orphaned (c : Cancellation) (signal : Nat) : Prop := ∀ i, ¬ c.Connected i signal

/-- What handles and signals come to when they are used again and again. -/
def after (c : Cancellation) (uses : List Use) : Cancellation := uses.foldl use c

theorem after_append (c : Cancellation) (before later : List Use) :
    c.after (before ++ later) = (c.after before).after later := List.foldl_append

theorem after_concat (c : Cancellation) (uses : List Use) (u : Use) :
    c.after (uses ++ [u]) = (c.after uses).use u := after_append c uses [u]

/-- What a use comes to. -/
inductive Effect (c : Cancellation) : Use → Cancellation → Prop where
  | handle {i : Nat} {handle : Option Nat} (hAt : c.handles[i]? = some handle) :
      Effect c (.cloneHandle i) { c with handles := c.handles ++ [handle] }
  | signal {i group : Nat} (hAt : c.signals[i]? = some group) :
      Effect c (.cloneSignal i) { c with signals := c.signals ++ [group] }
  | never :
      Effect c .never
        { c with groups := c.groups ++ [false], signals := c.signals ++ [c.groups.length] }
  | cancelled {i group : Nat} (hAt : c.handles[i]? = some (some group)) :
      Effect c (.cancel i) { c with groups := c.groups.set group true }
  | dropped (i : Nat) : Effect c (.dropHandle i) { c with handles := c.handles.set i none }
  /-- A handle or signal is used that is not there. -/
  | nothing {u : Use} (hIdle : ∀ i group, u = .cancel i → c.handles[i]? ≠ some (some group)) :
      Effect c u c

theorem effect_use (c : Cancellation) (u : Use) : Effect c u (c.use u) := by
  cases u with
  | cloneHandle i =>
      simp only [use, cloneHandle]
      split
      · next hAt => exact .handle hAt
      · exact .nothing (by simp)
  | cloneSignal i =>
      simp only [use, cloneSignal]
      split
      · next hAt => exact .signal hAt
      · exact .nothing (by simp)
  | never => exact .never
  | cancel i =>
      simp only [use, cancel]
      split
      · next hAt => exact .cancelled hAt
      · next hNone =>
          refine .nothing fun j group hCancel => ?_
          cases hCancel
          exact hNone group
  | dropHandle i => exact .dropped i

/-- Groups stay. -/
theorem Effect.length_groups (effect : Effect c u d) : c.groups.length ≤ d.groups.length := by
  cases effect <;> simp

/-- A use gives no handle to a group that had none. -/
theorem Effect.mem_handles (effect : Effect c u d) (h : some group ∈ d.handles) :
    some group ∈ c.handles := by
  cases effect with
  | handle hAt =>
      rcases List.mem_append.mp h with hOld | hNew
      · exact hOld
      · rw [List.mem_singleton.mp hNew]
        exact List.mem_of_getElem? hAt
  | dropped i => exact (List.mem_or_eq_of_mem_set h).resolve_right (Option.some_ne_none group)
  | signal hAt => exact h
  | never => exact h
  | cancelled hAt => exact h
  | nothing hIdle => exact h

/-- A signal stays in its group. -/
theorem Effect.getElem?_signals (effect : Effect c u d) (h : c.signals[signal]? = some group) :
    d.signals[signal]? = some group := by
  have hLt := (List.getElem?_eq_some_iff.mp h).1
  cases effect with
  | signal hAt => exact (List.getElem?_append_left hLt).trans h
  | never => exact (List.getElem?_append_left hLt).trans h
  | handle hAt => exact h
  | cancelled hAt => exact h
  | dropped i => exact h
  | nothing hIdle => exact h

theorem Effect.lt_length_signals (effect : Effect c u d) (h : signal < c.signals.length) :
    signal < d.signals.length :=
  (List.getElem?_eq_some_iff.mp (effect.getElem?_signals (List.getElem?_eq_getElem h))).1

/-- At the start there is one handle, and one signal that it is connected to. -/
theorem sound_start : Sound {} where
  handles := by simp
  signals := by simp

theorem Effect.sound (effect : Effect c u d) (sound : c.Sound) : d.Sound where
  handles := fun group h =>
    Nat.lt_of_lt_of_le (sound.handles group (effect.mem_handles h)) effect.length_groups
  signals := by
    intro group h
    have hOld : group ∈ c.signals → group < d.groups.length := fun hMem =>
      Nat.lt_of_lt_of_le (sound.signals group hMem) effect.length_groups
    cases effect with
    | signal hAt =>
        rcases List.mem_append.mp h with hMem | hNew
        · exact hOld hMem
        · rw [List.mem_singleton.mp hNew]
          exact sound.signals _ (List.mem_of_getElem? hAt)
    | never =>
        rcases List.mem_append.mp h with hMem | hNew
        · exact hOld hMem
        · simp [List.mem_singleton.mp hNew]
    | handle hAt => exact hOld h
    | cancelled hAt => exact hOld h
    | dropped i => exact hOld h
    | nothing hIdle => exact hOld h

theorem Sound.after (sound : c.Sound) (uses : List Use) : (c.after uses).Sound := by
  induction uses generalizing c with
  | nil => exact sound
  | cons u rest ih => exact ih ((effect_use c u).sound sound)

theorem lt_length_signals_after (h : signal < c.signals.length) (uses : List Use) :
    signal < (c.after uses).signals.length := by
  induction uses generalizing c with
  | nil => exact h
  | cons u rest ih => exact ih ((effect_use c u).lt_length_signals h)

theorem isCancelled_eq (h : c.signals[signal]? = some group) :
    c.isCancelled signal = c.groups[group]?.getD false := by
  simp [isCancelled, h]

/-- A signal is cancelled by a use exactly if that cancels with a handle connected to it. -/
theorem isCancelled_use (sound : c.Sound) (hSignal : signal < c.signals.length) (u : Use) :
    (c.use u).isCancelled signal = true ↔
      c.isCancelled signal = true ∨ ∃ i, u = .cancel i ∧ c.Connected i signal := by
  obtain ⟨group, hAt⟩ : ∃ group, c.signals[signal]? = some group :=
    ⟨_, List.getElem?_eq_getElem hSignal⟩
  have hGroup := sound.signals group (List.mem_of_getElem? hAt)
  have effect := effect_use c u
  rw [isCancelled_eq (effect.getElem?_signals hAt), isCancelled_eq hAt]
  generalize c.use u = d at effect
  cases effect with
  | handle hHandle => simp
  | signal hSignal' => simp
  | never => simp [List.getElem?_append_left hGroup]
  | @cancelled i other hHandle =>
      by_cases hOther : other = group
      · subst hOther
        have hSet : (c.groups.set other true)[other]? = some true := by
          rw [List.getElem?_set_self hGroup]
        exact iff_of_true (by simp [hSet]) (.inr ⟨i, rfl, other, hHandle, hAt⟩)
      · have hApart : ¬ c.Connected i signal := by
          rintro ⟨group', hHandle', hAt'⟩
          rw [hHandle, Option.some.injEq, Option.some.injEq] at hHandle'
          rw [hAt, Option.some.injEq] at hAt'
          exact hOther (hHandle'.trans hAt'.symm)
        simp [List.getElem?_set_ne hOther, hApart]
  | dropped i => simp
  | nothing hIdle =>
      refine (or_iff_left ?_).symm
      rintro ⟨i, rfl, group', hHandle, -⟩
      exact hIdle i group' rfl hHandle

/-- A signal is cancelled after some uses exactly if one of them cancelled with a handle that was
connected to it at that time. -/
theorem isCancelled_after (sound : c.Sound) (hSignal : signal < c.signals.length)
    (uses : List Use) :
    (c.after uses).isCancelled signal = true ↔
      c.isCancelled signal = true ∨ ∃ before i later, uses = before ++ .cancel i :: later ∧
        (c.after before).Connected i signal := by
  induction uses generalizing c with
  | nil => simp [after]
  | cons u rest ih =>
      have effect := effect_use c u
      change ((c.use u).after rest).isCancelled signal = true ↔ _
      rw [ih (effect.sound sound) (effect.lt_length_signals hSignal),
        isCancelled_use sound hSignal, or_assoc]
      refine or_congr_right ⟨?_, ?_⟩
      · rintro (⟨i, rfl, connected⟩ | ⟨before, i, later, rfl, connected⟩)
        · exact ⟨[], i, rest, rfl, connected⟩
        · exact ⟨u :: before, i, later, rfl, connected⟩
      · rintro ⟨before, i, later, hUses, connected⟩
        cases before with
        | nil =>
            cases hUses
            exact .inl ⟨i, rfl, connected⟩
        | cons first before =>
            cases hUses
            exact .inr ⟨before, i, later, rfl, connected⟩

/-- A handle that is a copy of another still cancels when that is gone; one that is gone does not. -/
example :
    (after {} [.cloneHandle 0, .dropHandle 0, .cancel 1]).isCancelled 0 = true ∧
    (after {} [.cloneHandle 0, .dropHandle 0, .cancel 0]).isCancelled 0 = false := by
  decide

/-- A use connects no handle to a signal to which none was connected. -/
theorem Orphaned.use (orphaned : c.Orphaned signal) (hSignal : signal < c.signals.length)
    (u : Use) : (c.use u).Orphaned signal := by
  rintro i ⟨group, hHandle, hAt⟩
  have effect := effect_use c u
  have hKept := effect.getElem?_signals (List.getElem?_eq_getElem hSignal)
  obtain rfl := Option.some.inj (hKept.symm.trans hAt)
  obtain ⟨j, hOld⟩ := List.mem_iff_getElem?.mp
    (effect.mem_handles (List.mem_of_getElem? hHandle))
  exact orphaned j ⟨_, hOld, List.getElem?_eq_getElem hSignal⟩

/-- A signal to which no handle is connected stays as it is. -/
theorem Orphaned.isCancelled_after (orphaned : c.Orphaned signal) (sound : c.Sound)
    (hSignal : signal < c.signals.length) (uses : List Use) :
    (c.after uses).isCancelled signal = c.isCancelled signal := by
  induction uses generalizing c with
  | nil => rfl
  | cons u rest ih =>
      have effect := effect_use c u
      have hSame : (c.use u).isCancelled signal = c.isCancelled signal := by
        rw [Bool.eq_iff_iff, isCancelled_use sound hSignal]
        exact or_iff_left fun ⟨i, _, connected⟩ => orphaned i connected
      exact (ih (orphaned.use hSignal u) (effect.sound sound)
        (effect.lt_length_signals hSignal)).trans hSame

/-- No handle is connected to the signal that never fires. -/
theorem orphaned_never (sound : c.Sound) : c.never.Orphaned c.signals.length := by
  rintro i ⟨group, hHandle, hAt⟩
  simp only [Cancellation.never, List.getElem?_concat_length, Option.some.injEq] at hAt
  subst hAt
  exact absurd (sound.handles _ (List.mem_of_getElem? hHandle)) (Nat.lt_irrefl _)

/-- Once the last handle of a signal is dropped, no handle is connected to it. -/
theorem orphaned_dropHandle (hLast : ∀ j, c.Connected j signal → j = i) :
    (c.dropHandle i).Orphaned signal := by
  rintro j ⟨group, hHandle, hAt⟩
  by_cases hj : i = j
  · subst hj
    simp [dropHandle, List.getElem?_set] at hHandle
  · rw [dropHandle, List.getElem?_set_ne hj] at hHandle
    exact hj (hLast j ⟨group, hHandle, hAt⟩).symm

end Cancellation

namespace Run

open Cancellation (Use)

variable {σ : Type} {plan : Plan} {store : Store σ} {world : World σ} {start d : Progress × σ}
  {actions : List Action} {c : Cancellation} {uses : List Use} {signal : Nat}

/-- The runs that look at a signal, and what is done with handles and signals in their course. A run
is cancelled when a use makes its signal show so, and at no other time. -/
inductive Watches (plan : Plan) (store : Store σ) (world : World σ) (c : Cancellation)
    (signal : Nat) (start : Progress × σ) : List Action → List Use → Progress × σ → Prop where
  /-- A run starts out as its signal shows. -/
  | start (hShows : start.1.cancelled = c.isCancelled signal) :
      Watches plan store world c signal start [] [] start
  | act {actions : List Action} {uses : List Use} {p : Progress} {s : σ} {d : Progress × σ}
      (prior : Watches plan store world c signal start actions uses (p, s)) (action : Action)
      (m : Moment) (hOwn : action ≠ .cancel) (answers : world.Answers plan p action)
      (taken : p.act? plan store m s action = some d) :
      Watches plan store world c signal start (actions ++ [action]) uses d
  | others {actions : List Action} {uses : List Use} {p : Progress} {s s' : σ}
      (prior : Watches plan store world c signal start actions uses (p, s))
      (change : world.others p s s') :
      Watches plan store world c signal start actions uses (p, s')
  /-- A use that changes nothing for the signal. -/
  | aside {actions : List Action} {uses : List Use} {d : Progress × σ}
      (prior : Watches plan store world c signal start actions uses d) (u : Use)
      (hSame : (c.after (uses ++ [u])).isCancelled signal = (c.after uses).isCancelled signal) :
      Watches plan store world c signal start actions (uses ++ [u]) d
  /-- A use that cancels the signal. -/
  | fires {actions : List Action} {uses : List Use} {p : Progress} {s : σ} {d : Progress × σ}
      (prior : Watches plan store world c signal start actions uses (p, s)) (u : Use) (m : Moment)
      (hFires : (c.after (uses ++ [u])).isCancelled signal = true)
      (taken : p.act? plan store m s .cancel = some d) :
      Watches plan store world c signal start (actions ++ [.cancel]) (uses ++ [u]) d

/-- A run that looks at a signal is a run. -/
theorem Watches.runs (watches : Watches plan store world c signal start actions uses d) :
    Runs plan store world start actions d := by
  induction watches with
  | start hShows => exact .start
  | act prior action m hOwn answers taken ih => exact .act ih action m answers taken
  | others prior change ih => exact .others ih change
  | aside prior u hSame ih => exact ih
  | fires prior u m hFires taken ih => exact .act ih .cancel m trivial taken

/-- A run is as cancelled as its signal. -/
theorem Watches.cancelled_eq (watches : Watches plan store world c signal start actions uses d) :
    d.1.cancelled = (c.after uses).isCancelled signal := by
  induction watches with
  | start hShows => exact hShows
  | act prior action m hOwn answers taken ih =>
      rw [← ih]
      cases Change.of_act? taken with
      | advanced move => cases move <;> rfl
      | cancelled hCancelled => exact absurd rfl hOwn
      | found hActive move => rfl
      | turned hActive hWorker move => rfl
  | others prior change ih => exact ih
  | aside prior u hSame ih => exact ih.trans hSame.symm
  | fires prior u m hFires taken ih =>
      cases Change.of_act? taken with
      | cancelled hCancelled => exact hFires.symm
      | found hActive move => cases move
      | turned hActive hWorker move => cases move

/-- A run is cancelled exactly if its signal was at the start, or if somebody has cancelled with a
handle that was connected to the signal at that time. -/
theorem Watches.cancelled_iff (watches : Watches plan store world c signal start actions uses d)
    (sound : c.Sound) (hSignal : signal < c.signals.length) :
    d.1.cancelled = true ↔
      c.isCancelled signal = true ∨ ∃ before i later, uses = before ++ .cancel i :: later ∧
        (c.after before).Connected i signal := by
  rw [watches.cancelled_eq]
  exact Cancellation.isCancelled_after sound hSignal uses

/-- A run is not cancelled any more once its signal has no handle left. -/
theorem Watches.not_cancelled {before later : List Use}
    (watches : Watches plan store world c signal start actions (before ++ later) d)
    (sound : c.Sound) (hSignal : signal < c.signals.length)
    (orphaned : (c.after before).Orphaned signal)
    (hBefore : (c.after before).isCancelled signal = false) :
    d.1.cancelled = false ∧ Action.cancel ∉ actions := by
  have hEnd : d.1.cancelled = false := by
    rw [watches.cancelled_eq, Cancellation.after_append, ← hBefore]
    exact orphaned.isCancelled_after (sound.after before)
      (Cancellation.lt_length_signals_after hSignal before) later
  have hStart : start.1.cancelled = false :=
    Bool.eq_false_iff.mpr fun h => by simp [watches.runs.cancelled_mono h] at hEnd
  refine ⟨hEnd, fun hMem => ?_⟩
  rw [(watches.runs.cancelled_iff hStart).mpr hMem] at hEnd
  cases hEnd

/-- Every run that is not cancelled at the start looks at a signal in this way: whoever cancels it
does so with the handle that its signal came with. -/
theorem Runs.watches (run : Runs plan store world start actions d)
    (hStart : start.1.cancelled = false) :
    ∃ uses, Watches plan store world {} 0 start actions uses d := by
  suffices h : ∃ uses, Watches plan store world {} 0 start actions uses d ∧
      (Cancellation.after {} uses).Connected 0 0 by
    exact h.imp fun _ => And.left
  induction run with
  | start => exact ⟨[], .start hStart, 0, rfl, rfl⟩
  | act prior action m answers taken ih =>
      obtain ⟨uses, watches, connected⟩ := ih
      by_cases hOwn : action = .cancel
      · subst hOwn
        obtain ⟨group, hHandle, hAt⟩ := connected
        have hFires : (Cancellation.after {} (uses ++ [.cancel 0])).isCancelled 0 = true := by
          rw [Cancellation.after_concat, Cancellation.isCancelled_use
            (Cancellation.sound_start.after uses) (List.getElem?_eq_some_iff.mp hAt).1]
          exact .inr ⟨0, rfl, group, hHandle, hAt⟩
        refine ⟨uses ++ [.cancel 0], .fires watches _ m hFires taken, ?_⟩
        rw [Cancellation.after_concat, Cancellation.use, Cancellation.cancel, hHandle]
        exact ⟨group, hHandle, hAt⟩
      · exact ⟨uses, .act watches action m hOwn answers taken, connected⟩
  | others prior change ih =>
      exact ih.imp fun _ h => ⟨.others h.1 change, h.2⟩

end Run

end ChangeGate
