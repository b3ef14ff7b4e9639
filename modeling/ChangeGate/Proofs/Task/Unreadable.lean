import ChangeGate.Proofs.Task.Forwarding

/-! Lines that cannot be read. The reader of a stream ends at the first of them, and nobody reads
what the task writes after it. So the lines that come later are lost although they can be read, and
the pipe of the stream is closed while the task may still be writing to it. Nothing is lost exactly
if no line that can be read comes after one that cannot. -/

namespace ChangeGate

/-- A line is made of characters. -/
def IsReadable (line : List UInt8) : Prop := (Text.Utf8.strict? line).isSome = true

instance : DecidablePred IsReadable := fun _ => inferInstanceAs (Decidable (_ = true))

/-- The lines of a stream that have an end. -/
def endedLines (bytes : List UInt8) : List (List UInt8) :=
  (Text.pieces 0x0A bytes).dropLast.map (Text.dropFinal 0x0D)

/-- The texts of the lines that can be read, whatever stands between them. -/
def textsOf (lines : List (List UInt8)) : List String :=
  lines.filterMap fun line => (Text.Utf8.strict? line).map String.ofList

/-- A line without an end comes after all that have one. -/
theorem exists_linesWith_eq (bytes : List UInt8) :
    ∃ last, Text.linesWith 0x0A 0x0D bytes = endedLines bytes ++ last := by
  simp only [Text.linesWith, endedLines]
  split
  · next first rest hLast => exact ⟨[first :: rest], rfl⟩
  · exact ⟨[], (List.append_nil _).symm⟩

theorem textsOf_eq_nil_iff {lines : List (List UInt8)} :
    textsOf lines = [] ↔ ∀ line ∈ lines, ¬ IsReadable line := by
  simp [textsOf, IsReadable, List.filterMap_eq_nil_iff]

/-- Reading up to the first line that cannot be read keeps all that can be read of the lines with an
end exactly if no such line comes after one that cannot be read. -/
theorem textsOf_sublist_iff (ended last : List (List UInt8)) :
    (textsOf ended).Sublist (readableLines (ended ++ last)) ↔
      ended.Pairwise fun earlier later => IsReadable later → IsReadable earlier := by
  induction ended with
  | nil => simp [textsOf]
  | cons line rest ih =>
      rw [List.pairwise_cons, List.cons_append]
      cases hText : Text.Utf8.strict? line with
      | some text =>
          have hReadable : IsReadable line := by rw [IsReadable, hText]; rfl
          have hTexts : textsOf (line :: rest) = String.ofList text :: textsOf rest := by
            simp [textsOf, hText]
          simp only [hTexts, readableLines, hText, List.cons_sublist_cons, ih]
          exact ⟨fun hRest => ⟨fun _ _ _ => hReadable, hRest⟩, And.right⟩
      | none =>
          have hUnreadable : ¬ IsReadable line := by simp [IsReadable, hText]
          have hTexts : textsOf (line :: rest) = textsOf rest := by simp [textsOf, hText]
          simp only [hTexts, readableLines, hText, List.sublist_nil, textsOf_eq_nil_iff]
          constructor
          · intro hNone
            refine ⟨fun later hMem hLater => absurd hLater (hNone later hMem), ?_⟩
            exact List.pairwise_iff_getElem.mpr fun _ _ _ hRange _ hLater =>
              absurd hLater (hNone _ (List.getElem_mem hRange))
          · rintro ⟨hFirst, -⟩ later hMem hLater
            exact hUnreadable (hFirst later hMem hLater)

/-- Lines that can be read and have only such lines before them are kept. -/
theorem length_lt_readableLines {taken rest : List (List UInt8)} {line : List UInt8}
    (hTaken : ∀ l ∈ taken, IsReadable l) (hLine : IsReadable line) :
    taken.length < (readableLines (taken ++ line :: rest)).length := by
  induction taken with
  | nil =>
      obtain ⟨text, hText⟩ := Option.isSome_iff_exists.mp hLine
      simp [readableLines, hText]
  | cons first others ih =>
      obtain ⟨text, hText⟩ := Option.isSome_iff_exists.mp (hTaken first List.mem_cons_self)
      simpa [readableLines, hText] using ih fun l hMem => hTaken l (List.mem_cons_of_mem _ hMem)

namespace Forwarding

/-- Where a reader stands in its stream: the lines that it has taken can be read, and it goes on
with the bytes after them up to the end, or it has ended at a line that cannot be read. -/
inductive StreamReader.Reads (bytes : List UInt8) (r : StreamReader) : Prop where
  | going (taken : List (List UInt8))
      (hLines : Text.linesWith 0x0A 0x0D bytes =
        taken ++ Text.linesWith 0x0A 0x0D (r.pending ++ r.unread))
      (hTaken : ∀ line ∈ taken, IsReadable line) (hNumber : r.number = taken.length)
      (hEnd : r.ended = true → r.pending ++ r.unread = [])
  | stopped {taken : List (List UInt8)} {line : List UInt8}
      (hLines : Text.linesWith 0x0A 0x0D bytes =
        taken ++ line :: Text.linesWith 0x0A 0x0D r.unread)
      (hTaken : ∀ line ∈ taken, IsReadable line) (hLine : ¬ IsReadable line)
      (hEnded : r.ended = true)

namespace StreamReader

variable {r : StreamReader} {bytes : List UInt8}

/-- The next line is taken if it can be read, and otherwise the reader stops there. -/
theorem reads_hold (hFew : (streamLines bytes).length < Bits.values 32) (hFree : r.Free)
    (hPending : r.pending = []) {taken : List (List UInt8)} {line : List UInt8}
    (hLines : Text.linesWith 0x0A 0x0D bytes =
      taken ++ line :: Text.linesWith 0x0A 0x0D r.unread)
    (hTaken : ∀ l ∈ taken, IsReadable l) (hNumber : r.number = taken.length) :
    Reads bytes (r.hold line) := by
  cases hText : Text.Utf8.strict? line with
  | none =>
      have hLine : ¬ IsReadable line := by simp [IsReadable, hText]
      simp only [hold, hText]
      exact .stopped hLines hTaken hLine rfl
  | some text =>
      have hLine : IsReadable line := by rw [IsReadable, hText]; rfl
      have hRoom : r.number < lastNumber := by
        rw [streamLines, hLines] at hFew
        have hKept : taken.length < (readableLines
            (taken ++ line :: Text.linesWith 0x0A 0x0D r.unread)).length :=
          length_lt_readableLines hTaken hLine
        simp only [lastNumber]
        omega
      simp only [hold, hText, hRoom, if_true]
      refine .going (taken ++ [line]) ?_ ?_ ?_ ?_
      · rw [hLines, hPending]
        simp
      · simpa [or_imp, forall_and] using ⟨hTaken, hLine⟩
      · simp [hNumber]
      · simp [hFree.isOpen]

theorem Reads.take (hFew : (streamLines bytes).length < Bits.values 32) (hFree : r.Free)
    (hSound : r.Sound) (reads : Reads bytes r) (count : Nat) : Reads bytes (r.take count) := by
  induction count generalizing r with
  | zero => exact reads
  | succ count ih =>
      cases hUnread : r.unread with
      | nil => simpa only [StreamReader.take, hUnread] using reads
      | cons byte rest =>
          cases reads with
          | stopped _ _ _ hEnded => rw [hFree.isOpen] at hEnded; cases hEnded
          | going taken hLines hTaken hNumber hEnd =>
              by_cases hFeed : byte = 0x0A
              · simp only [StreamReader.take, hUnread, hFeed, ↓reduceIte]
                rw [hUnread, hFeed, Text.linesWith_append_cons hSound.pending] at hLines
                have hAfter : StreamReader.Free { r with unread := rest, pending := [] } :=
                  ⟨hFree.isOpen, hFree.held⟩
                exact reads_hold hFew hAfter rfl hLines hTaken hNumber
              · simp only [StreamReader.take, hUnread, hFeed, ↓reduceIte]
                have hPending : 0x0A ∉ r.pending ++ [byte] := by
                  simpa [hSound.pending] using Ne.symm hFeed
                refine ih ⟨hFree.isOpen, hFree.held⟩ ⟨hPending, hSound.held⟩
                  (.going taken ?_ hTaken hNumber ?_)
                · simpa [hUnread] using hLines
                · simp [hFree.isOpen]

theorem Reads.finish (hFew : (streamLines bytes).length < Bits.values 32) (hFree : r.Free)
    (hSound : r.Sound) (hUnread : r.unread = []) (reads : Reads bytes r) :
    Reads bytes r.finish := by
  cases reads with
  | stopped _ _ _ hEnded => rw [hFree.isOpen] at hEnded; cases hEnded
  | going taken hLines hTaken hNumber hEnd =>
      cases hPending : r.pending with
      | nil =>
          have hDone : r.finish = { r with ended := true } := by
            simp [StreamReader.finish, hPending]
          rw [hDone]
          exact .going taken hLines hTaken hNumber fun _ => by simp [hPending, hUnread]
      | cons byte rest =>
          have hLast : r.finish = hold { r with pending := [] } r.pending := by
            simp [StreamReader.finish, hPending]
          rw [hLast]
          rw [hUnread, List.append_nil r.pending,
            Text.linesWith_of_notMem hSound.pending (by simp [hPending])] at hLines
          have hAfter : StreamReader.Free { r with pending := [] } := ⟨hFree.isOpen, hFree.held⟩
          have hNext : Text.linesWith 0x0A 0x0D bytes =
              taken ++ r.pending :: Text.linesWith 0x0A 0x0D r.unread := by
            rw [hLines, hUnread]
            rfl
          exact reads_hold hFew hAfter rfl hNext hTaken hNumber

theorem Reads.congr {r' : StreamReader} (reads : Reads bytes r) (hUnread : r'.unread = r.unread)
    (hPending : r'.pending = r.pending) (hNumber : r'.number = r.number)
    (hEnded : r'.ended = r.ended) : Reads bytes r' := by
  cases reads with
  | going taken hLines hTaken hCount hEnd =>
      exact .going taken (by rw [hPending, hUnread]; exact hLines) hTaken (hNumber.trans hCount)
        (by rw [hPending, hUnread, hEnded]; exact hEnd)
  | stopped hLines hTaken hLine hStopped =>
      exact .stopped (by rw [hUnread]; exact hLines) hTaken hLine (hEnded.trans hStopped)

/-- A reader that has ended has left something unread exactly if a line that cannot be read comes
before another one. -/
theorem Reads.unread_eq_nil_iff (reads : Reads bytes r) (hEnded : r.ended = true) :
    r.unread = [] ↔ ∀ line ∈ (Text.linesWith 0x0A 0x0D bytes).dropLast, IsReadable line := by
  cases reads with
  | going taken hLines hTaken _ hEnd =>
      have hNone := hEnd hEnded
      rw [hNone, Text.linesWith_nil, List.append_nil] at hLines
      rw [hLines]
      exact iff_of_true (List.append_eq_nil_iff.mp hNone).2
        fun line hMem => hTaken line (List.dropLast_subset _ hMem)
  | @stopped taken bad hLines hTaken hLine _ =>
      rw [hLines]
      constructor
      · intro hUnread
        simpa [hUnread] using hTaken
      · intro hAll
        refine Decidable.byContradiction fun hSome => ?_
        have hRest : Text.linesWith 0x0A 0x0D r.unread ≠ [] :=
          mt Text.linesWith_eq_nil_iff.mp hSome
        refine hLine (hAll bad ?_)
        rw [List.dropLast_append_of_ne_nil (by simp), List.dropLast_cons_of_ne_nil hRest]
        simp

end StreamReader

section

variable {runner : Runner} {c : TaskContext} {t t' : Traffic} {action : Action}
  {actions : List Action} {stream : Stream} {bytes : List UInt8}
  {written : Stream → List UInt8}

theorem lineEvent_inj {text text' : String} :
    lineEvent c ⟨stream, text⟩ = lineEvent c ⟨stream, text'⟩ ↔ text = text' := by
  simp [lineEvent]

theorem map_lineEvent_sublist_iff {texts texts' : List String} :
    (texts.map fun text => lineEvent c ⟨stream, text⟩).Sublist
        (texts'.map fun text => lineEvent c ⟨stream, text⟩) ↔ texts.Sublist texts' := by
  refine ⟨fun h => ?_, fun h => h.map _⟩
  obtain ⟨part, hPart, hSame⟩ := List.sublist_map_iff.mp h
  obtain rfl := (List.map_inj_right fun _ _ => lineEvent_inj.mp).mp hSame
  exact hPart

/-- The reader of a stream stands in that stream after every action. -/
theorem Change.reads (hFew : (streamLines bytes).length < Bits.values 32)
    (change : Change runner c t action t') (hSound : t.Sound)
    (reads : (t.reader stream).Reads bytes) : (t'.reader stream).Reads bytes := by
  cases change with
  | @take stream' count hFree =>
      rw [Traffic.reader_setReader]
      split
      · next hHere =>
          subst hHere
          exact reads.take hFew hFree (hSound.readers stream) count
      · exact reads
  | @finish stream' hFree hUnread =>
      rw [Traffic.reader_setReader]
      split
      · next hHere =>
          subst hHere
          exact reads.finish hFew hFree (hSound.readers stream) hUnread
      · exact reads
  | @send stream' text =>
      have hReader : Traffic.reader
          { t.setReader { t.reader stream' with held := none } stream' with
            queue := t.queue ++ [⟨stream', text⟩] } stream =
          if stream = stream' then { t.reader stream' with held := none } else t.reader stream :=
        Traffic.reader_setReader t _ stream' stream
      rw [hReader]
      split
      · next hHere =>
          subst hHere
          exact reads.congr rfl rfl rfl rfl
      · exact reads
  | _ => exact reads

theorem sound_and_reads (hFew : (streamLines (written stream)).length < Bits.values 32)
    (hRun : (Traffic.start written).run? runner c actions = some t) :
    t.Sound ∧ (t.reader stream).Reads (written stream) := by
  have hStart : (Traffic.start written).reader stream = { unread := written stream } := by
    cases stream <;> rfl
  refine run?_induction (P := fun t => t.Sound ∧ (t.reader stream).Reads (written stream))
    (fun change h => ⟨change.sound h.1, change.reads hFew h.1 h.2⟩) hRun ⟨sound_start written, ?_⟩
  rw [hStart]
  exact .going [] rfl nofun rfl nofun

end

/-- The reader of a stream ends before the stream does only where a line that cannot be read comes
before another line, whether the command still runs or not. And when a task that was not late has
its result, the stream was read to its end exactly if there is no such line. The bus was handed the
lines before the first that cannot be read, so it was handed every line with an end that can be
read, in order, exactly if none of them comes after one that cannot be read. -/
theorem readable_lines_published_iff (runner : Runner) (c : TaskContext)
    {written : Stream → List UInt8} {stream : Stream}
    (hFew : (streamLines (written stream)).length < Bits.values 32) :
    (∀ actions t, (Traffic.start written).run? runner c actions = some t →
      (t.reader stream).ended = true → (t.reader stream).unread ≠ [] →
        ∃ line ∈ (Text.linesWith 0x0A 0x0D (written stream)).dropLast, ¬ IsReadable line) ∧
    ∀ actions t ending, (Traffic.start written).run? runner c actions = some t →
      t.stage = .returned ending → ending ≠ .late →
        ((t.reader stream).unread = [] ↔
          ∀ line ∈ (Text.linesWith 0x0A 0x0D (written stream)).dropLast, IsReadable line) ∧
        (runner.publishes = true →
          t.events.filter (isOf stream) =
            (streamLines (written stream)).map (fun text => lineEvent c ⟨stream, text⟩) ∧
          (((textsOf (endedLines (written stream))).map fun text =>
              lineEvent c ⟨stream, text⟩).Sublist (t.events.filter (isOf stream)) ↔
            (endedLines (written stream)).Pairwise
              fun earlier later => IsReadable later → IsReadable earlier)) := by
  refine ⟨fun actions t hRun hEnded hSome => ?_, fun actions t ending hRun hStage hInTime => ?_⟩
  · obtain ⟨-, reads⟩ := sound_and_reads hFew hRun
    simpa using mt (reads.unread_eq_nil_iff hEnded).mpr hSome
  · obtain ⟨hSound, reads⟩ := sound_and_reads hFew hRun
    have hEnded := (hSound.closed (hSound.returned hStage hInTime)).2 stream
    refine ⟨reads.unread_eq_nil_iff hEnded, fun hPublishes => ?_⟩
    have hAll : (streamLines (written stream)).length ≤ lastNumber := Nat.le_sub_one_of_lt hFew
    have hEvents : t.events.filter (isOf stream) =
        (streamLines (written stream)).map fun text => lineEvent c ⟨stream, text⟩ := by
      rw [events_of_returned hRun hStage hInTime hPublishes, List.take_of_length_le hAll]
    refine ⟨hEvents, ?_⟩
    obtain ⟨last, hLast⟩ := exists_linesWith_eq (written stream)
    rw [hEvents, map_lineEvent_sublist_iff, streamLines, hLast]
    exact textsOf_sublist_iff _ last

/-- A task with a line that cannot be read between two that can. -/
def brokenOutput : Stream → List UInt8
  | .output => Text.Utf8.encode "one\n".toList ++ 0xFF :: Text.Utf8.encode "\ntwo\n".toList
  | .messages => []

/-- A course of it in which its reader stops before the command ends. -/
def brokenCourse : List Action :=
  [.take .output 9, .send .output, .take .output 9, .receive, .publish none, .conclude (.exited 0),
    .finish .messages, .join, .join, .close, .join]

/-- The traffic when its reader has stopped: the command is running, and its last line is unread. -/
def brokenMidway : Traffic where
  output := { unread := Text.Utf8.encode "two\n".toList, number := 1, ended := true }
  messages := { unread := [] }
  queue := [⟨.output, "one"⟩]

def brokenTraffic : Traffic where
  output := { unread := Text.Utf8.encode "two\n".toList, number := 1, ended := true }
  messages := { unread := [], ended := true }
  handed := [(lineEvent sampleTask ⟨.output, "one"⟩, none)]
  closed := true
  stage := .returned (.exited 0)

/-- The reader of its output ends while the command is running, with the last line still to be read.
The task is a success, and that line is not published. -/
theorem line_after_unreadable_lost :
    (Traffic.start brokenOutput).run? { hasBus := true } sampleTask (brokenCourse.take 3) =
      some brokenMidway ∧
    brokenMidway.stage = .command ∧ brokenMidway.output.ended = true ∧
    brokenMidway.output.unread ≠ [] ∧
    (Traffic.start brokenOutput).run? { hasBus := true } sampleTask brokenCourse =
      some brokenTraffic ∧
    brokenTraffic.result? { hasBus := true } sampleTask = some (.ok ⟨0, true⟩) ∧
    "two" ∈ textsOf (endedLines (brokenOutput .output)) ∧
    lineEvent sampleTask ⟨.output, "two"⟩ ∉ brokenTraffic.events := by
  refine ⟨?_, rfl, rfl, ?_, ?_, rfl, ?_, ?_⟩ <;> decide +kernel

/-- A task with a line that cannot be read and has no end. -/
def unendedOutput : Stream → List UInt8
  | .output => Text.Utf8.encode "one\n".toList ++ [0xFF]
  | .messages => []

def unendedCourse : List Action :=
  [.take .output 9, .send .output, .take .output 9, .finish .output, .receive, .publish none,
    .conclude (.exited 0), .finish .messages, .join, .join, .close, .join]

/-- Its output is read to the end, and the line before is published. -/
theorem sample_unended_line :
    ∃ t, (Traffic.start unendedOutput).run? { hasBus := true } sampleTask unendedCourse = some t ∧
      t.output.unread = [] ∧
      ([lineEvent sampleTask ⟨.output, "one"⟩]).Sublist (t.events.filter (isOf .output)) := by
  have hCheck : ((Traffic.start unendedOutput).run? { hasBus := true } sampleTask
      unendedCourse).any (fun t => t.stage = .returned (.exited 0)) = true := by decide +kernel
  obtain ⟨t, hRun, hStage⟩ := (Option.any_eq_true _ _).mp hCheck
  have hFew : (streamLines (unendedOutput .output)).length < Bits.values 32 := by decide +kernel
  obtain ⟨hRead, hPublished⟩ := (readable_lines_published_iff { hasBus := true } sampleTask hFew).2
    unendedCourse t (.exited 0) hRun (by simpa using hStage) (by decide)
  have hTexts : textsOf (endedLines (unendedOutput .output)) = ["one"] := by decide +kernel
  refine ⟨t, hRun, hRead.mpr (by decide +kernel), ?_⟩
  have hAll := (hPublished rfl).2.mpr (by decide +kernel)
  rwa [hTexts] at hAll

end Forwarding

end ChangeGate
