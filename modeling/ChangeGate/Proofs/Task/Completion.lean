import ChangeGate.Proofs.Task.Forwarding

/-! Every course of the lines of a task comes to an end, and it ends nowhere but where the task has
its result: readers, limited queue and forwarder are never stuck on each other. -/

namespace ChangeGate.Forwarding

namespace StreamReader

variable {r : StreamReader}

/-- A bound on the actions that are due for a reader. A byte may be taken alone, and a line of it
has to be sent, received and published. -/
def work (r : StreamReader) : Nat :=
  5 * r.unread.length + 4 * r.pending.length + 3 * r.held.toList.length +
    (!r.ended).toNat

theorem work_hold_le (hFree : r.Free) (line : List UInt8) : (r.hold line).work ≤ r.work + 3 := by
  have hWork : r.work = 5 * r.unread.length + 4 * r.pending.length + 1 := by
    simp [work, hFree.held, hFree.isOpen]
  rw [hWork]
  unfold hold
  split
  · split
    · simp [work, hFree.isOpen]
    · simp only [work, hFree.held, Option.toList_none, List.length_nil, Bool.not_true,
        Bool.toNat_false]
      omega
  · simp only [work, hFree.held, Option.toList_none, List.length_nil, Bool.not_true,
      Bool.toNat_false]
    omega

theorem work_take_le (hFree : r.Free) (count : Nat) :
    (r.take count).work ≤ r.work ∧
      (count ≠ 0 → r.unread ≠ [] → (r.take count).work < r.work) := by
  induction count generalizing r with
  | zero => exact ⟨Nat.le_refl _, fun hNone => absurd rfl hNone⟩
  | succ count ih =>
      cases hUnread : r.unread with
      | nil => simp [take, hUnread]
      | cons byte rest =>
          have hWork : r.work = 5 * (rest.length + 1) + 4 * r.pending.length + 1 := by
            simp [work, hUnread, hFree.held, hFree.isOpen]
          suffices hLess : (r.take (count + 1)).work < r.work from
            ⟨Nat.le_of_lt hLess, fun _ _ => hLess⟩
          by_cases hFeed : byte = 0x0A
          · simp only [take, hUnread, hFeed, ↓reduceIte]
            have hAfter : StreamReader.Free { r with unread := rest, pending := [] } :=
              ⟨hFree.isOpen, hFree.held⟩
            have hHold := work_hold_le hAfter (Text.dropFinal 0x0D r.pending)
            have hRest : work { r with unread := rest, pending := [] } = 5 * rest.length + 1 := by
              simp [work, hFree.held, hFree.isOpen]
            omega
          · simp only [take, hUnread, hFeed, ↓reduceIte]
            have hAfter :
                StreamReader.Free { r with unread := rest, pending := r.pending ++ [byte] } :=
              ⟨hFree.isOpen, hFree.held⟩
            have hTake := (ih hAfter).1
            have hRest : work { r with unread := rest, pending := r.pending ++ [byte] } =
                5 * rest.length + 4 * (r.pending.length + 1) + 1 := by
              simp [work, hFree.held, hFree.isOpen]
            omega

theorem work_finish_lt (hFree : r.Free) : r.finish.work < r.work := by
  cases hPending : r.pending with
  | nil => simp [finish, hPending, work, hFree.isOpen]
  | cons byte rest =>
      have hLast : r.finish = hold { r with pending := [] } r.pending := by
        simp [finish, hPending]
      have hAfter : StreamReader.Free { r with pending := [] } := ⟨hFree.isOpen, hFree.held⟩
      have hHold := work_hold_le hAfter r.pending
      have hRest : r.work = work { r with pending := [] } + 4 * r.pending.length := by
        simp [work]
        omega
      rw [hLast]
      simp only [hRest, hPending, List.length_cons]
      simp only [hPending] at hHold
      omega

end StreamReader

/-- The number of actions that the result is away from the end of the command. -/
def Stage.work : Stage → Nat
  | .command => 4
  | .reader .output _ => 3
  | .reader .messages _ => 2
  | .forwarder _ => 1
  | .returned _ => 0

/-- A bound on the actions that are possible, one after another. -/
def Traffic.work (t : Traffic) : Nat :=
  t.output.work + t.messages.work + 2 * t.queue.length + t.inHand.toList.length +
    (!t.closed).toNat + t.stage.work

section

variable {runner : Runner} {c : TaskContext} {t t' : Traffic} {action : Action}
  {actions : List Action} {stream : Stream}

theorem work_setReader (t : Traffic) (stream : Stream) (r : StreamReader) :
    (t.setReader r stream).work + (t.reader stream).work = t.work + r.work := by
  cases stream <;> simp only [Traffic.work, Traffic.setReader, Traffic.reader] <;> omega

theorem Change.work_lt (change : Change runner c t action t') : t'.work < t.work := by
  cases change with
  | @take stream count hFree hSome hCount =>
      have hTake := (StreamReader.work_take_le hFree count).2 hCount hSome
      have hSet := work_setReader t stream ((t.reader stream).take count)
      omega
  | @finish stream hFree =>
      have hFinish := StreamReader.work_finish_lt hFree
      have hSet := work_setReader t stream (t.reader stream).finish
      omega
  | @send stream text hHeld =>
      have hSet := work_setReader t stream { t.reader stream with held := none }
      have hReader : (t.reader stream).work =
          StreamReader.work { t.reader stream with held := none } + 3 := by
        simp only [StreamReader.work, hHeld, Option.toList_some, Option.toList_none,
          List.length_singleton, List.length_nil]
        omega
      have hQueue : Traffic.work
          { t.setReader { t.reader stream with held := none } stream with
            queue := t.queue ++ [⟨stream, text⟩] } =
          (t.setReader { t.reader stream with held := none } stream).work + 2 := by
        simp only [Traffic.work, Traffic.queue_setReader, List.length_append,
          List.length_singleton]
        omega
      omega
  | receive hHand hQueue =>
      simp only [Traffic.work, hHand, hQueue, Option.toList_some, Option.toList_none,
        List.length_cons, List.length_nil]
      omega
  | publish hHand => simp [Traffic.work, hHand]
  | close _ _ _ hOpen => simp [Traffic.work, hOpen]
  | late hStage | conclude hStage => simp [Traffic.work, Stage.work, hStage]
  | joinOutput hStage | joinMessages hStage | joinForwarder hStage =>
      simp [Traffic.work, Stage.work, hStage]

/-- No course goes on for ever. -/
theorem length_add_work_le (hRun : t.run? runner c actions = some t') :
    actions.length + t'.work ≤ t.work := by
  induction actions generalizing t with
  | nil => exact Option.some.inj hRun ▸ Nat.le_of_eq (Nat.zero_add _)
  | cons action rest ih =>
      obtain ⟨next, hNext, hRest⟩ := Option.bind_eq_some_iff.mp hRun
      have hLess := (Change.of_act? hNext).work_lt
      have hLater := ih hRest
      simp only [List.length_cons]
      omega

/-- A course that cannot go on has brought the task its result. -/
theorem returned_of_stuck (hStuck : ∀ action, t.act? runner c action = none) :
    ∃ ending, t.stage = .returned ending := by
  have hNone : ∀ {action t'}, ¬ Change runner c t action t' := fun change => by
    simpa [hStuck] using change.act?_eq
  have hHand : t.inHand = none := Option.eq_none_iff_forall_ne_some.mpr fun line hLine =>
    hNone (show Change runner c t (.publish none) _ from .publish hLine)
  have hQueue : t.queue = [] := by
    cases hLines : t.queue with
    | nil => rfl
    | cons line rest => exact absurd (.receive hHand hLines) hNone
  have hRoom : t.queue.length < queueLimit := by simp [hQueue, queueLimit]
  have hHeld : ∀ stream, (t.reader stream).held = none := fun stream =>
    Option.eq_none_iff_forall_ne_some.mpr fun text hText => hNone (.send hText hRoom)
  have hEnded : ∀ stream, (t.reader stream).ended = true := fun stream => by
    cases hOpen : (t.reader stream).ended with
    | true => rfl
    | false =>
        by_cases hUnread : (t.reader stream).unread = []
        · exact absurd (.finish ⟨hOpen, hHeld stream⟩ hUnread) hNone
        · exact absurd (.take ⟨hOpen, hHeld stream⟩ hUnread Nat.one_ne_zero) hNone
  have hClosed : t.closed = true := by
    cases hOpen : t.closed with
    | true => rfl
    | false => exact absurd (.close hEnded hQueue hHand hOpen) hNone
  cases hStage : t.stage with
  | command => exact absurd (.late hStage) hNone
  | reader stream ending =>
      cases stream with
      | output => exact absurd (.joinOutput hStage (hEnded .output)) hNone
      | messages => exact absurd (.joinMessages hStage (hEnded .messages)) hNone
  | forwarder ending => exact absurd (.joinForwarder hStage hClosed) hNone
  | returned ending => exact ⟨ending, rfl⟩

end

end ChangeGate.Forwarding
