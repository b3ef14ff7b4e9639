import ChangeGate.Proofs.Text.Lines
import ChangeGate.Task.Forwarding

/-! Lines on their way from a task to the bus. What the bus was handed of a stream and what is still
to come of it make up the same lines after every action. When the result of a command that ended by
itself is there, nothing is to come. -/

namespace ChangeGate.Forwarding

namespace StreamReader

variable {r : StreamReader}

/-- The lines that are to come from a reader: the one it holds and those of the bytes that it has
not made lines of. -/
def toCome (r : StreamReader) : List String :=
  r.held.toList ++
    if r.ended then []
    else (readableLines (Text.linesWith 0x0A 0x0D (r.pending ++ r.unread))).take
      (lastNumber - r.number)

structure Sound (r : StreamReader) : Prop where
  pending : 0x0A ∉ r.pending
  held : r.ended = true → r.held = none

/-- A reader that can go on. -/
structure Free (r : StreamReader) : Prop where
  isOpen : r.ended = false
  held : r.held = none

theorem sound_hold (hFree : r.Free) (hPending : 0x0A ∉ r.pending) (line : List UInt8) :
    (r.hold line).Sound := by
  unfold hold
  split
  · split
    · exact ⟨hPending, fun hEnded => absurd hEnded (by simp [hFree.isOpen])⟩
    · exact ⟨hPending, fun _ => hFree.held⟩
  · exact ⟨hPending, fun _ => hFree.held⟩

/-- A line that is held was the next to come. -/
theorem toCome_hold (hFree : r.Free) (line : List UInt8) :
    (r.hold line).toCome =
      (readableLines (line :: Text.linesWith 0x0A 0x0D (r.pending ++ r.unread))).take
        (lastNumber - r.number) := by
  cases hText : Text.Utf8.strict? line with
  | none => simp [hold, readableLines, hText, toCome, hFree.held]
  | some text =>
      by_cases hRoom : r.number < lastNumber
      · have hNext : lastNumber - r.number = lastNumber - (r.number + 1) + 1 := by omega
        simp [hold, readableLines, hText, toCome, hFree.isOpen, hRoom, hNext]
      · have hNone : lastNumber - r.number = 0 := by omega
        simp [hold, hText, toCome, hFree.held, hRoom, hNone]

theorem toCome_of_free (hFree : r.Free) :
    r.toCome = (readableLines (Text.linesWith 0x0A 0x0D (r.pending ++ r.unread))).take
      (lastNumber - r.number) := by
  simp [toCome, hFree.held, hFree.isOpen]

/-- However many bytes are taken, the same lines are to come. -/
theorem take_keeps (hFree : r.Free) (hSound : r.Sound) (count : Nat) :
    (r.take count).Sound ∧ (r.take count).toCome = r.toCome := by
  induction count generalizing r with
  | zero => exact ⟨hSound, rfl⟩
  | succ count ih =>
      cases hUnread : r.unread with
      | nil => simpa [take, hUnread] using hSound
      | cons byte rest =>
          by_cases hFeed : byte = 0x0A
          · simp only [take, hUnread, hFeed, ↓reduceIte]
            have hAfter : StreamReader.Free { r with unread := rest, pending := [] } :=
              ⟨hFree.isOpen, hFree.held⟩
            refine ⟨sound_hold hAfter List.not_mem_nil _, ?_⟩
            rw [toCome_hold hAfter, toCome_of_free hFree, hUnread, hFeed,
              Text.linesWith_append_cons hSound.pending]
            rfl
          · simp only [take, hUnread, hFeed, ↓reduceIte]
            have hPending : 0x0A ∉ r.pending ++ [byte] := by
              simpa [hSound.pending] using Ne.symm hFeed
            have hAfter :
                StreamReader.Free { r with unread := rest, pending := r.pending ++ [byte] } :=
              ⟨hFree.isOpen, hFree.held⟩
            obtain ⟨hKept, hSame⟩ := ih hAfter ⟨hPending, hSound.held⟩
            refine ⟨hKept, hSame.trans ?_⟩
            rw [toCome_of_free hAfter, toCome_of_free hFree, hUnread]
            simp

/-- At the end of a stream what has no end is a line. -/
theorem finish_keeps (hFree : r.Free) (hSound : r.Sound) (hUnread : r.unread = []) :
    r.finish.Sound ∧ r.finish.toCome = r.toCome := by
  cases hPending : r.pending with
  | nil =>
      have hDone : r.finish = { r with ended := true } := by simp [finish, hPending]
      rw [hDone, toCome_of_free hFree, hPending, hUnread]
      exact ⟨⟨List.not_mem_nil, fun _ => hFree.held⟩, by simp [toCome, hFree.held, readableLines]⟩
  | cons byte rest =>
      have hLast : r.finish = hold { r with pending := [] } r.pending := by
        simp [finish, hPending]
      have hAfter : StreamReader.Free { r with pending := [] } := ⟨hFree.isOpen, hFree.held⟩
      rw [hLast]
      refine ⟨sound_hold hAfter List.not_mem_nil _, ?_⟩
      rw [toCome_hold hAfter, toCome_of_free hFree, hUnread,
        List.append_nil r.pending,
        Text.linesWith_of_notMem hSound.pending (by simp [hPending])]
      rfl

/-- A line that is sent was the next to come, and the others are to come still. -/
theorem toCome_of_held {text : String} (hHeld : r.held = some text) :
    r.toCome = text :: toCome { r with held := none } := by
  simp [toCome, hHeld]

end StreamReader

namespace Traffic

variable (t : Traffic) (r : StreamReader) (stream : Stream)

@[simp] theorem reader_setReader (stream' : Stream) :
    (t.setReader r stream).reader stream' = if stream' = stream then r else t.reader stream' := by
  cases stream <;> cases stream' <;> rfl

@[simp] theorem queue_setReader : (t.setReader r stream).queue = t.queue := by
  cases stream <;> rfl

@[simp] theorem inHand_setReader : (t.setReader r stream).inHand = t.inHand := by
  cases stream <;> rfl

@[simp] theorem handed_setReader : (t.setReader r stream).handed = t.handed := by
  cases stream <;> rfl

@[simp] theorem closed_setReader : (t.setReader r stream).closed = t.closed := by
  cases stream <;> rfl

@[simp] theorem stage_setReader : (t.setReader r stream).stage = t.stage := by
  cases stream <;> rfl

end Traffic

/-- What an action needs and what it changes. -/
inductive Change (runner : Runner) (c : TaskContext) (t : Traffic) : Action → Traffic → Prop where
  | take {stream : Stream} {count : Nat} (hFree : (t.reader stream).Free)
      (hSome : (t.reader stream).unread ≠ []) (hCount : count ≠ 0) :
      Change runner c t (.take stream count) (t.setReader ((t.reader stream).take count) stream)
  | finish {stream : Stream} (hFree : (t.reader stream).Free)
      (hUnread : (t.reader stream).unread = []) :
      Change runner c t (.finish stream) (t.setReader (t.reader stream).finish stream)
  | send {stream : Stream} {text : String} (hHeld : (t.reader stream).held = some text)
      (hRoom : t.queue.length < queueLimit) :
      Change runner c t (.send stream)
        { t.setReader { t.reader stream with held := none } stream with
          queue := t.queue ++ [⟨stream, text⟩] }
  | receive {line : OutputLine} {rest : List OutputLine} (hHand : t.inHand = none)
      (hQueue : t.queue = line :: rest) :
      Change runner c t .receive { t with queue := rest, inHand := some line }
  | publish {line : OutputLine} {answer : Option Error} (hHand : t.inHand = some line) :
      Change runner c t (.publish answer)
        { t with
          inHand := none
          handed := t.handed ++ if runner.publishes then [(lineEvent c line, answer)] else [] }
  | close (hEnded : ∀ stream, (t.reader stream).ended = true) (hQueue : t.queue = [])
      (hHand : t.inHand = none) (hOpen : t.closed = false) :
      Change runner c t .close { t with closed := true }
  | late (hStage : t.stage = .command) :
      Change runner c t (.conclude .late) { t with stage := .returned .late }
  | conclude {ending : Shell.Ending} (hStage : t.stage = .command) (hInTime : ending ≠ .late) :
      Change runner c t (.conclude ending) { t with stage := .reader .output ending }
  | joinOutput {ending : Shell.Ending} (hStage : t.stage = .reader .output ending)
      (hEnded : t.output.ended = true) :
      Change runner c t .join { t with stage := .reader .messages ending }
  | joinMessages {ending : Shell.Ending} (hStage : t.stage = .reader .messages ending)
      (hEnded : t.messages.ended = true) :
      Change runner c t .join { t with stage := .forwarder ending }
  | joinForwarder {ending : Shell.Ending} (hStage : t.stage = .forwarder ending)
      (hClosed : t.closed = true) :
      Change runner c t .join { t with stage := .returned ending }

section

variable {runner : Runner} {c : TaskContext} {t t' : Traffic} {action : Action}
  {actions : List Action} {stream : Stream}

/-- An action that was taken had what it needs. -/
theorem Change.of_act? (hTaken : t.act? runner c action = some t') :
    Change runner c t action t' := by
  cases action with
  | take stream count =>
      simp only [Traffic.act?, Option.ite_none_left_eq_some, Option.some.injEq] at hTaken
      obtain ⟨hPossible, rfl⟩ := hTaken
      simp only [Bool.or_eq_true, not_or, Bool.not_eq_true, Option.isSome_eq_false_iff,
        Option.isNone_iff_eq_none, List.isEmpty_eq_false_iff, beq_eq_false_iff_ne] at hPossible
      obtain ⟨⟨⟨hOpen, hHeld⟩, hSome⟩, hCount⟩ := hPossible
      exact .take ⟨hOpen, hHeld⟩ hSome hCount
  | finish stream =>
      simp only [Traffic.act?, Option.ite_none_left_eq_some, Option.some.injEq] at hTaken
      obtain ⟨hPossible, rfl⟩ := hTaken
      simp only [Bool.or_eq_true, not_or, Bool.not_eq_true, Option.isSome_eq_false_iff,
        Option.isNone_iff_eq_none, Bool.not_eq_false', List.isEmpty_iff] at hPossible
      obtain ⟨⟨hOpen, hHeld⟩, hUnread⟩ := hPossible
      exact .finish ⟨hOpen, hHeld⟩ hUnread
  | send stream =>
      simp only [Traffic.act?] at hTaken
      split at hTaken
      · next text hHeld =>
        simp only [Option.ite_none_right_eq_some, Option.some.injEq] at hTaken
        obtain ⟨hRoom, rfl⟩ := hTaken
        exact .send hHeld hRoom
      · cases hTaken
  | receive =>
      simp only [Traffic.act?] at hTaken
      split at hTaken
      · next line rest hHand hQueue =>
        cases hTaken
        exact .receive hHand hQueue
      · cases hTaken
  | publish answer =>
      simp only [Traffic.act?] at hTaken
      split at hTaken
      · next line hHand =>
        cases hTaken
        exact .publish hHand
      · cases hTaken
  | close =>
      simp only [Traffic.act?, Option.ite_none_right_eq_some, Option.some.injEq] at hTaken
      obtain ⟨hPossible, rfl⟩ := hTaken
      simp only [Bool.and_eq_true, List.isEmpty_iff, Option.isNone_iff_eq_none,
        Bool.not_eq_true'] at hPossible
      obtain ⟨⟨⟨⟨hOutput, hMessages⟩, hQueue⟩, hHand⟩, hOpen⟩ := hPossible
      refine .close (fun stream => ?_) hQueue hHand hOpen
      cases stream
      · exact hOutput
      · exact hMessages
  | conclude ending =>
      simp only [Traffic.act?] at hTaken
      split at hTaken
      · next hStage =>
        cases hTaken
        by_cases hLate : ending = .late
        · subst hLate
          exact .late hStage
        · rw [if_neg hLate]
          exact .conclude hStage hLate
      · cases hTaken
  | join =>
      simp only [Traffic.act?] at hTaken
      split at hTaken
      · next ending hStage =>
        simp only [Option.ite_none_right_eq_some, Option.some.injEq] at hTaken
        obtain ⟨hEnded, rfl⟩ := hTaken
        exact .joinOutput hStage hEnded
      · next ending hStage =>
        simp only [Option.ite_none_right_eq_some, Option.some.injEq] at hTaken
        obtain ⟨hEnded, rfl⟩ := hTaken
        exact .joinMessages hStage hEnded
      · next ending hStage =>
        simp only [Option.ite_none_right_eq_some, Option.some.injEq] at hTaken
        obtain ⟨hClosed, rfl⟩ := hTaken
        exact .joinForwarder hStage hClosed
      · cases hTaken

/-- An action that has what it needs is possible. -/
theorem Change.act?_eq (change : Change runner c t action t') :
    t.act? runner c action = some t' := by
  cases change with
  | take hFree hSome hCount => simp [Traffic.act?, hFree.isOpen, hFree.held, hSome, hCount]
  | finish hFree hUnread => simp [Traffic.act?, hFree.isOpen, hFree.held, hUnread]
  | send hHeld hRoom => simp [Traffic.act?, hHeld, hRoom]
  | receive hHand hQueue => simp [Traffic.act?, hHand, hQueue]
  | publish hHand => simp [Traffic.act?, hHand]
  | close hEnded hQueue hHand hOpen =>
      have hOutput : t.output.ended = true := hEnded .output
      have hMessages : t.messages.ended = true := hEnded .messages
      simp [Traffic.act?, hOutput, hMessages, hQueue, hHand, hOpen]
  | late hStage => simp [Traffic.act?, hStage]
  | conclude hStage hInTime => simp [Traffic.act?, hStage, hInTime]
  | joinOutput hStage hEnded => simp [Traffic.act?, hStage, hEnded]
  | joinMessages hStage hEnded => simp [Traffic.act?, hStage, hEnded]
  | joinForwarder hStage hClosed => simp [Traffic.act?, hStage, hClosed]

/-- What every action keeps, a course keeps. -/
theorem run?_induction {P : Traffic → Prop}
    (hStep : ∀ {t action t'}, Change runner c t action t' → P t → P t')
    (hRun : t.run? runner c actions = some t') (hStart : P t) : P t' := by
  induction actions generalizing t with
  | nil => exact Option.some.inj hRun ▸ hStart
  | cons action rest ih =>
      obtain ⟨next, hNext, hRest⟩ := Option.bind_eq_some_iff.mp hRun
      exact ih hRest (hStep (Change.of_act? hNext) hStart)

/-! How a command has ended is settled once. -/

theorem Change.ending_mono (change : Change runner c t action t') {ending : Shell.Ending}
    (hEnding : t.stage.ending? = some ending) : t'.stage.ending? = some ending := by
  cases change with
  | late hStage | conclude hStage => simp [hStage, Stage.ending?] at hEnding
  | joinOutput hStage | joinMessages hStage | joinForwarder hStage =>
      simpa [hStage, Stage.ending?] using hEnding
  | _ => simpa using hEnding

theorem Change.ending_of_conclude {ending : Shell.Ending}
    (change : Change runner c t (.conclude ending) t') : t'.stage.ending? = some ending := by
  cases change <;> rfl

/-- A course in which the command ends has its ending. -/
theorem ending_of_mem {ending : Shell.Ending} (hRun : t.run? runner c actions = some t')
    (hEnding : .conclude ending ∈ actions) : t'.stage.ending? = some ending := by
  induction actions generalizing t with
  | nil => cases hEnding
  | cons action rest ih =>
      obtain ⟨next, hNext, hRest⟩ := Option.bind_eq_some_iff.mp hRun
      have change := Change.of_act? hNext
      rcases List.mem_cons.mp hEnding with rfl | hLater
      · exact run?_induction (fun change h => change.ending_mono h) hRest
          change.ending_of_conclude
      · exact ih hRest hLater

/-! A forwarder that has ended has left nothing, and a task that is not late waits for that. -/

/-- The lines that the forwarder has not dealt with. -/
def Traffic.underWay (t : Traffic) : List OutputLine := t.inHand.toList ++ t.queue

structure Traffic.Sound (t : Traffic) : Prop where
  readers : ∀ stream, (t.reader stream).Sound
  closed : t.closed = true → t.underWay = [] ∧ ∀ stream, (t.reader stream).ended = true
  returned : ∀ {ending}, t.stage = .returned ending → ending ≠ .late → t.closed = true

theorem sound_start (written : Stream → List UInt8) : (Traffic.start written).Sound where
  readers stream := by cases stream <;> exact ⟨List.not_mem_nil, fun _ => rfl⟩
  closed hClosed := by cases hClosed
  returned hStage := by cases hStage

/-- While a reader goes on, the forwarder does. -/
theorem Traffic.Sound.closed_eq_false (hSound : t.Sound)
    (hOpen : (t.reader stream).ended = false) : t.closed = false :=
  Bool.eq_false_iff.mpr fun hClosed => by simp [(hSound.closed hClosed).2 stream] at hOpen

theorem Traffic.Sound.setReader (hSound : t.Sound) {r : StreamReader}
    (hOpen : (t.reader stream).ended = false) (hReader : r.Sound) :
    (t.setReader r stream).Sound where
  readers stream' := by
    rw [Traffic.reader_setReader]
    split
    · exact hReader
    · exact hSound.readers stream'
  closed hClosed := by simp [hSound.closed_eq_false hOpen] at hClosed
  returned hStage := by simpa using hSound.returned (by simpa using hStage)

theorem Change.sound (change : Change runner c t action t') (hSound : t.Sound) : t'.Sound := by
  cases change with
  | @take stream count hFree =>
      exact hSound.setReader hFree.isOpen
        (StreamReader.take_keeps hFree (hSound.readers stream) count).1
  | @finish stream hFree hUnread =>
      exact hSound.setReader hFree.isOpen
        (StreamReader.finish_keeps hFree (hSound.readers stream) hUnread).1
  | @send stream text hHeld hRoom =>
      have hReader := hSound.readers stream
      have hOpen : (t.reader stream).ended = false :=
        Bool.eq_false_iff.mpr fun hEnded => by simp [hReader.held hEnded] at hHeld
      have hAfter := hSound.setReader hOpen (r := { t.reader stream with held := none })
        ⟨hReader.pending, fun _ => rfl⟩
      exact {
        readers := hAfter.readers
        closed := fun hClosed => by simp [hSound.closed_eq_false hOpen] at hClosed
        returned := hAfter.returned }
  | receive hHand hQueue =>
      refine ⟨hSound.readers, fun hClosed => ?_, hSound.returned⟩
      simpa [Traffic.underWay, hHand, hQueue] using (hSound.closed hClosed).1
  | publish hHand =>
      refine ⟨hSound.readers, fun hClosed => ?_, hSound.returned⟩
      simpa [Traffic.underWay, hHand] using (hSound.closed hClosed).1
  | close hEnded hQueue hHand =>
      exact ⟨hSound.readers, fun _ => ⟨by simp [Traffic.underWay, hQueue, hHand], hEnded⟩,
        fun _ _ => rfl⟩
  | late =>
      refine ⟨hSound.readers, hSound.closed, fun hStage hInTime => ?_⟩
      cases hStage
      exact absurd rfl hInTime
  | joinForwarder _ hClosed => exact ⟨hSound.readers, hSound.closed, fun _ _ => hClosed⟩
  | conclude | joinOutput | joinMessages =>
      exact ⟨hSound.readers, hSound.closed, fun hStage => by cases hStage⟩

/-- When a task that is not late has its result, nothing of it is left anywhere. -/
theorem Traffic.Sound.nothing_left (hSound : t.Sound) {ending : Shell.Ending}
    (hStage : t.stage = .returned ending) (hInTime : ending ≠ .late) :
    t.underWay = [] ∧ ∀ stream, (t.reader stream).toCome = [] := by
  obtain ⟨hNone, hEnded⟩ := hSound.closed (hSound.returned hStage hInTime)
  refine ⟨hNone, fun stream => ?_⟩
  simp [StreamReader.toCome, hEnded stream, (hSound.readers stream).held (hEnded stream)]

/-! What was handed over of a stream and what is still to come of it are always the same lines. -/

/-- Whether an event is of a line of a stream. -/
def isOf (stream : Stream) (e : Event) : Bool :=
  match e.body with
  | .jobOutput _ _ isStderr => isStderr == decide (stream = .messages)
  | _ => false

@[simp] theorem isOf_lineEvent (line : OutputLine) :
    isOf stream (lineEvent c line) = decide (line.stream = stream) := by
  obtain ⟨of, text⟩ := line
  cases of <;> cases stream <;> rfl

namespace Traffic

/-- The lines of a stream that the bus has not been handed, from the oldest on. -/
def due (t : Traffic) (stream : Stream) : List OutputLine :=
  t.underWay.filter (·.stream = stream) ++ (t.reader stream).toCome.map (⟨stream, ·⟩)

/-- The events of a stream: those that the bus was handed, and those that it is going to be. -/
def account (c : TaskContext) (t : Traffic) (stream : Stream) : List Event :=
  t.events.filter (isOf stream) ++ (t.due stream).map (lineEvent c)

theorem account_congr (hHanded : t'.handed = t.handed) (hDue : t'.due stream = t.due stream) :
    t'.account c stream = t.account c stream := by
  rw [account, account, events, events, hHanded, hDue]

/-- A line that is handed over is an event instead. -/
theorem account_of_handed (line : OutputLine)
    (hEvents : t'.events = t.events ++ [lineEvent c line])
    (hLine : t.underWay = line :: t'.underWay) (hReader : t'.reader stream = t.reader stream) :
    t'.account c stream = t.account c stream := by
  by_cases hHere : line.stream = stream <;>
    simp [account, due, hEvents, hLine, hReader, hHere]

theorem due_setReader {r : StreamReader} {stream' : Stream}
    (hSame : r.toCome = (t.reader stream').toCome) :
    (t.setReader r stream').due stream = t.due stream := by
  have hCome : ((t.setReader r stream').reader stream).toCome = (t.reader stream).toCome := by
    rw [reader_setReader]
    split
    · next hHere => rw [hHere, hSame]
    · rfl
  simp only [due, underWay, inHand_setReader, queue_setReader, hCome]

end Traffic

theorem Change.account_eq (change : Change runner c t action t') (hSound : t.Sound)
    (hPublishes : runner.publishes = true) : t'.account c stream = t.account c stream := by
  cases change with
  | @take stream' count hFree =>
      exact Traffic.account_congr (by simp) (Traffic.due_setReader
        (StreamReader.take_keeps hFree (hSound.readers stream') count).2)
  | @finish stream' hFree hUnread =>
      exact Traffic.account_congr (by simp) (Traffic.due_setReader
        (StreamReader.finish_keeps hFree (hSound.readers stream') hUnread).2)
  | @send stream' text hHeld hRoom =>
      refine Traffic.account_congr (by simp) ?_
      have hReader : Traffic.reader
          { t.setReader { t.reader stream' with held := none } stream' with
            queue := t.queue ++ [⟨stream', text⟩] } stream =
          if stream = stream' then { t.reader stream' with held := none } else t.reader stream :=
        Traffic.reader_setReader t _ stream' stream
      rw [Traffic.due, hReader]
      by_cases hHere : stream = stream'
      · subst hHere
        simp [Traffic.due, Traffic.underWay, StreamReader.toCome_of_held hHeld]
      · simp [Traffic.due, Traffic.underWay, hHere, Ne.symm hHere]
  | @receive line rest hHand hQueue =>
      refine Traffic.account_congr rfl ?_
      have hSame : Traffic.underWay { t with queue := rest, inHand := some line } = t.underWay := by
        simp [Traffic.underWay, hHand, hQueue]
      rw [Traffic.due, hSame]
      rfl
  | @publish line answer hHand =>
      exact Traffic.account_of_handed line (by simp [Traffic.events, hPublishes])
        (by simp [Traffic.underWay, hHand]) rfl
  | _ => exact Traffic.account_congr rfl rfl

/-- At the start the lines of a stream are all to come. -/
theorem account_start (written : Stream → List UInt8) :
    (Traffic.start written).account c stream =
      ((streamLines (written stream)).take lastNumber).map fun text =>
        lineEvent c ⟨stream, text⟩ := by
  have hReader : (Traffic.start written).reader stream = { unread := written stream } := by
    cases stream <;> rfl
  have hNone : (Traffic.start written).underWay = [] := rfl
  have hEvents : (Traffic.start written).events = [] := rfl
  rw [Traffic.account, Traffic.due, hReader, hNone, hEvents]
  simp [StreamReader.toCome, streamLines, Function.comp_def]

/-- The bus of a task that has its result and was not late was handed the lines of each stream, up
to the first that cannot be read. -/
theorem events_of_returned {written : Stream → List UInt8}
    (hRun : (Traffic.start written).run? runner c actions = some t) {ending : Shell.Ending}
    (hStage : t.stage = .returned ending) (hInTime : ending ≠ .late)
    (hPublishes : runner.publishes = true) :
    t.events.filter (isOf stream) =
      ((streamLines (written stream)).take lastNumber).map fun text =>
        lineEvent c ⟨stream, text⟩ := by
  have hKept := run?_induction
    (P := fun t' => t'.Sound ∧
      t'.account c stream = (Traffic.start written).account c stream)
    (fun change h => ⟨change.sound h.1, (change.account_eq h.1 hPublishes).trans h.2⟩)
    hRun ⟨sound_start written, rfl⟩
  obtain ⟨hSound, hAccount⟩ := hKept
  obtain ⟨hNone, hCome⟩ := hSound.nothing_left hStage hInTime
  have hDue : t.due stream = [] := by simp [Traffic.due, hNone, hCome]
  rw [← account_start, ← hAccount, Traffic.account, hDue, List.map_nil, List.append_nil]

/-- The bus is handed events of lines of this task only. -/
theorem Change.of_task (change : Change runner c t action t')
    (hLines : ∀ event ∈ t.events, ∃ line, event = lineEvent c line) :
    ∀ event ∈ t'.events, ∃ line, event = lineEvent c line := by
  cases change with
  | @publish line answer hHand =>
      intro event hEvent
      simp only [Traffic.events, List.map_append, List.mem_append] at hEvent
      rcases hEvent with hEarlier | hNow
      · exact hLines event hEarlier
      · cases hPublishes : runner.publishes
        · simp [hPublishes] at hNow
        · exact ⟨line, by simpa [hPublishes] using hNow⟩
  | _ => simpa [Traffic.events] using hLines

/-- The events are those of the lines of each stream, in order, and no others. -/
structure Reports (c : TaskContext) (lines : Stream → List String) (events : List Event) :
    Prop where
  of_stream : ∀ stream, events.filter (isOf stream) =
    (lines stream).map fun text => ⟨c.run, .jobOutput c.job text (stream = .messages)⟩
  of_task : ∀ event ∈ events, ∃ text isStderr, event = ⟨c.run, .jobOutput c.job text isStderr⟩

/-- Events that report what was written are those of the lines that are kept of it. -/
theorem Reports.perm {written : Stream → List UInt8} {events : List Event}
    (reports : Reports c (fun stream => streamLines (written stream)) events) :
    events.Perm ((outputLines (written .output) (written .messages)).map (lineEvent c)) := by
  have hOther : events.filter (fun event => !isOf .output event) =
      events.filter (isOf .messages) := by
    refine List.filter_congr fun event hEvent => ?_
    obtain ⟨text, isStderr, rfl⟩ := reports.of_task event hEvent
    cases isStderr <;> rfl
  have hParts := List.filter_append_perm (isOf .output) events
  rw [hOther, reports.of_stream, reports.of_stream] at hParts
  simpa [outputLines, lineEvent, Function.comp_def] using hParts.symm

theorem reports_of_returned {written : Stream → List UInt8}
    (hFew : ∀ stream, (streamLines (written stream)).length < Bits.values 32)
    (hRun : (Traffic.start written).run? runner c actions = some t) {ending : Shell.Ending}
    (hStage : t.stage = .returned ending) (hInTime : ending ≠ .late)
    (hPublishes : runner.publishes = true) :
    Reports c (fun stream => streamLines (written stream)) t.events where
  of_stream stream := by
    have hAll : (streamLines (written stream)).length ≤ lastNumber :=
      Nat.le_sub_one_of_lt (hFew stream)
    rw [events_of_returned hRun hStage hInTime hPublishes, List.take_of_length_le hAll]
    rfl
  of_task event hEvent := by
    obtain ⟨line, rfl⟩ := run?_induction (fun change h => change.of_task h) hRun
      (fun _ hNone => by cases hNone) event hEvent
    exact ⟨_, _, rfl⟩

theorem Change.handed_eq (change : Change runner c t action t')
    (hPublishes : runner.publishes = false) : t'.handed = t.handed := by
  cases change with
  | publish hHand => simp [hPublishes]
  | _ => simp

/-- The lines of a text are those of the bytes it is written as. -/
theorem streamLines_encode (text : List Char) :
    streamLines (Text.Utf8.encode text) = (Text.lines text).map String.ofList := by
  rw [streamLines, Text.linesWith_encode]
  induction Text.lines text with
  | nil => rfl
  | cons line rest ih =>
      simp only [List.map_cons, readableLines, Text.Utf8.strict?_encode, ih]

end

/-- When a task that was not late has its result, the bus was handed each line of either stream, in
order and as one of that stream. What the bus answers changes neither that nor the result, and
without a bus, or if output is not to be published, nothing is handed over. -/
theorem every_line_published (runner : Runner) (c : TaskContext) {texts : Stream → List Char}
    (hFew : ∀ stream, (Text.lines (texts stream)).length < Bits.values 32)
    {actions : List Action} {t : Traffic} {ending : Shell.Ending}
    {result : Except Error TaskResult}
    (hRun : (Traffic.start fun stream => Text.Utf8.encode (texts stream)).run? runner c actions =
      some t)
    (hEnding : .conclude ending ∈ actions) (hInTime : ending ≠ .late)
    (hResult : t.result? runner c = some result) :
    result = taskResult (runner.seconds c.task) ending ∧
      (runner.publishes = true →
        Reports c (fun stream => (Text.lines (texts stream)).map String.ofList) t.events) ∧
      (runner.publishes = false → t.handed = []) := by
  have hSettled := ending_of_mem hRun hEnding
  cases hStage : t.stage with
  | command | reader | forwarder => simp [Traffic.result?, hStage] at hResult
  | returned ending' =>
      have hSame : ending' = ending := by simpa [hStage, Stage.ending?] using hSettled
      subst hSame
      simp only [Traffic.result?, hStage, Option.some.injEq] at hResult
      refine ⟨hResult.symm, fun hPublishes => ?_, fun hSilent => ?_⟩
      · simpa only [streamLines_encode] using
          reports_of_returned (by simpa [streamLines_encode] using hFew) hRun hStage hInTime
            hPublishes
      · exact run?_induction (P := fun t' => t'.handed = [])
          (fun change h => (change.handed_eq hSilent).trans h) hRun rfl

/-- A task with two lines on one stream, the last without an end, and one line on the other. -/
def sampleTask : TaskContext where
  run := ⟨Uuid.ofNat 7⟩
  job := ⟨Uuid.ofNat 8⟩
  name := "ci"
  parameters := ∅
  vars := ∅
  task := { run := "make" }
  workspace := "."

def sampleTexts : Stream → List Char
  | .output => "one\r\ntwo".toList
  | .messages => "bad\n".toList

/-- A course of it in which the bus fails on the first line and output is read after the end. -/
def sampleCourse : List Action :=
  [.take .messages 9, .send .messages, .receive, .take .output 2,
    .publish (some (.eventBus "down")), .take .output 9, .conclude (.exited 0), .send .output,
    .take .output 9, .finish .output, .receive, .publish none, .send .output, .finish .output,
    .join, .receive, .finish .messages, .join, .publish none, .close, .join]

def sampleTraffic : Traffic where
  output := { unread := [], number := 2, ended := true }
  messages := { unread := [], number := 1, ended := true }
  handed := [
    (lineEvent sampleTask ⟨.messages, "bad"⟩, some (.eventBus "down")),
    (lineEvent sampleTask ⟨.output, "one"⟩, none),
    (lineEvent sampleTask ⟨.output, "two"⟩, none)]
  closed := true
  stage := .returned (.exited 0)

theorem sample_lines_published :
    (Traffic.start fun stream => Text.Utf8.encode (sampleTexts stream)).run? { hasBus := true }
      sampleTask sampleCourse = some sampleTraffic ∧
    sampleTraffic.result? { hasBus := true } sampleTask = some (.ok ⟨0, true⟩) ∧
    Reports sampleTask (fun stream => (Text.lines (sampleTexts stream)).map String.ofList)
      sampleTraffic.events := by
  have hRun : (Traffic.start fun stream => Text.Utf8.encode (sampleTexts stream)).run?
      { hasBus := true } sampleTask sampleCourse = some sampleTraffic := by decide +kernel
  have hResult : sampleTraffic.result? { hasBus := true } sampleTask = some (.ok ⟨0, true⟩) := rfl
  have hFew : ∀ stream, (Text.lines (sampleTexts stream)).length < Bits.values 32 := by
    intro stream
    cases stream <;> decide
  have hEnding : .conclude (.exited 0) ∈ sampleCourse := by decide
  obtain ⟨-, hReports, -⟩ := every_line_published { hasBus := true } sampleTask hFew hRun hEnding
    (by decide) hResult
  exact ⟨hRun, hResult, hReports rfl⟩

end ChangeGate.Forwarding
