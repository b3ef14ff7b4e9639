import ChangeGate.Proofs.Form.Event
import ChangeGate.Proofs.Form.Report

/-! Reports, events and decisions are read back from the text that is written for them, and whatever
text they are read from, what is written for them is final: it is read as the same value, and so
written as the same text. -/

namespace ChangeGate

open Json Json.Reader

theorem RunReport.restores_text : Restores (reader .text Json.maxDepth) toJson InRange :=
  restores .text (by decide)

theorem Event.restores_text : Restores (reader .text Json.maxDepth) toJson InRange :=
  restores .text (by decide)

theorem Decision.restores_text : Restores (reader .text Json.maxDepth) toJson InRange :=
  restores .text (by decide)

/-- A report, an event or a decision whose numbers fit their types and whose instants are on the
calendar is read back from its text, with every table of values in its order. Whatever text one is
read from, its fields in whatever order, it is such a value, and reading what is written for it and
writing that again gives the same text. What is asked of a report that was read back, its counts,
whether it has failures or was cancelled, and its jobs by name, is answered as by the report that
was written. -/
theorem reports_events_and_decisions_read_back :
    ((∀ r : RunReport, r.InRange → RunReport.ofText r.toJson.compact = .ok r) ∧
      (∀ e : Event, e.InRange → Event.ofText e.toJson.compact = .ok e) ∧
      ∀ d : Decision, d.InRange → Decision.ofText d.toJson.compact = .ok d) ∧
    ((∀ text r, RunReport.ofText text = .ok r → r.InRange ∧
        (RunReport.ofText r.toJson.compact).map (·.toJson.compact) = .ok r.toJson.compact) ∧
      (∀ text e, Event.ofText text = .ok e → e.InRange ∧
        (Event.ofText e.toJson.compact).map (·.toJson.compact) = .ok e.toJson.compact) ∧
      ∀ text d, Decision.ofText text = .ok d → d.InRange ∧
        (Decision.ofText d.toJson.compact).map (·.toJson.compact) = .ok d.toJson.compact) ∧
    ∀ r again : RunReport, r.InRange → RunReport.ofText r.toJson.compact = .ok again →
      again.summary = r.summary ∧ again.hasFailures = r.hasFailures ∧
        again.wasCancelled = r.wasCancelled ∧ ∀ name, again.job? name = r.job? name := by
  have hReport := RunReport.restores_text
  have hEvent := Event.restores_text
  have hDecision := Decision.restores_text
  refine ⟨⟨fun _ h => hReport.read_compact h, fun _ h => hEvent.read_compact h,
    fun _ h => hDecision.read_compact h⟩, ⟨?_, ?_, ?_⟩, ?_⟩
  · exact fun _ _ h => ⟨hReport.inRange_of_read h, hReport.rewrite_compact h⟩
  · exact fun _ _ h => ⟨hEvent.inRange_of_read h, hEvent.rewrite_compact h⟩
  · exact fun _ _ h => ⟨hDecision.inRange_of_read h, hDecision.rewrite_compact h⟩
  · intro r again hIn hAgain
    have hRead : RunReport.ofText r.toJson.compact = .ok r := hReport.read_compact hIn
    cases hAgain.symm.trans hRead
    exact ⟨rfl, rfl, rfl, fun _ => rfl⟩

def sampleDecision : Decision := .noMatch 3

/-- The sample decision, its reason first and the kind of that last. -/
def sampleDecisionText : String :=
  "\x7b\"reason\":\x7b\"paths_considered\":3,\"kind\":\"no_match\"\x7d," ++
    "\"changes_detected\":false\x7d"

def sampleEvent : Event := ⟨⟨⟨1⟩⟩, .runCancelled ⟨⟨2024, 5, 1⟩, 36000, 500000000⟩⟩

/-- The sample event, its kind last, with an instant away from universal time and a member that is
no field. -/
def sampleEventText : String :=
  "\x7b\"cancelled_at\":\"2024-05-01T12:00:00.5+02:00\",\"by\":null," ++
    "\"run_id\":\"00000000000000000000000000000001\",\"type\":\"run_cancelled\"\x7d"

/-- The report of a run in which one of two jobs has failed. -/
def sampleReport : RunReport :=
  let job : JobReport := {
    id := ⟨⟨2⟩⟩, index := 0, name := "tests (3.9)"
    parameters := Table.ofList [("task", "ray"), ("runtime", "3.9")]
    alwaysRun := false, gated := true, outcome := .failed, exitCode := some (-1), message := none
    startedAt := none, completedAt := ⟨⟨2024, 5, 1⟩, 36000, 500000000⟩, duration := some 7 }
  { id := ⟨⟨1⟩⟩, workflow := "ci", revisions := ⟨"a", "b"⟩, decision := some sampleDecision
    detectorError := none
    jobs := [job, { job with index := 1, name := "lint", outcome := .skipped, exitCode := none }]
    startedAt := ⟨⟨2024, 5, 1⟩, 36000, 0⟩, completedAt := ⟨⟨2024, 5, 1⟩, 36001, 0⟩, duration := 42 }

theorem inRange_sampleReport : sampleReport.InRange where
  decision := by rintro _ ⟨⟩; exact (by decide +kernel : 3 ≤ Number.maxWord)
  jobs := by
    refine List.forall_mem_cons.mpr ⟨?_, List.forall_mem_singleton.mpr ?_⟩
    · exact ⟨by decide +kernel, by rintro _ ⟨⟩; decide +kernel, nofun, by decide,
        by rintro _ ⟨⟩; decide +kernel⟩
    · exact ⟨by decide +kernel, nofun, nofun, by decide, by rintro _ ⟨⟩; decide +kernel⟩
  startedAt := by decide
  completedAt := by decide
  duration := by decide +kernel

/-- The samples are read from their texts and read back from what is written for them; the report
that was read back has the counts and the jobs of the sample. -/
theorem samples_read_back :
    (Decision.ofText sampleDecisionText = .ok sampleDecision ∧ sampleDecision.InRange ∧
      Decision.ofText sampleDecision.toJson.compact = .ok sampleDecision ∧
      (Decision.ofText sampleDecision.toJson.compact).map (·.toJson.compact) =
        .ok sampleDecision.toJson.compact) ∧
    (Event.ofText sampleEventText = .ok sampleEvent ∧ sampleEvent.InRange ∧
      Event.ofText sampleEvent.toJson.compact = .ok sampleEvent ∧
      (Event.ofText sampleEvent.toJson.compact).map (·.toJson.compact) =
        .ok sampleEvent.toJson.compact) ∧
    (sampleReport.InRange ∧ RunReport.ofText sampleReport.toJson.compact = .ok sampleReport ∧
      (RunReport.ofText sampleReport.toJson.compact).map (·.toJson.compact) =
        .ok sampleReport.toJson.compact) ∧
    ∃ again, RunReport.ofText sampleReport.toJson.compact = .ok again ∧
      again.summary = { failed := 1, skipped := 1 } ∧ again.hasFailures = true ∧
      again.wasCancelled = false ∧ (again.job? "lint").map (·.outcome) = some .skipped := by
  obtain ⟨⟨hReport, hEvent, hDecision⟩, ⟨hReportAgain, hEventAgain, hDecisionAgain⟩, hAnswers⟩ :=
    reports_events_and_decisions_read_back
  have hDecisionText : Decision.ofText sampleDecisionText = .ok sampleDecision := by decide +kernel
  have hEventText : Event.ofText sampleEventText = .ok sampleEvent := by decide +kernel
  obtain ⟨hDecisionIn, hDecisionText'⟩ := hDecisionAgain _ _ hDecisionText
  obtain ⟨hEventIn, hEventText'⟩ := hEventAgain _ _ hEventText
  have hRead := hReport sampleReport inRange_sampleReport
  obtain ⟨hSummary, hFailures, hCancelled, hJob⟩ := hAnswers _ _ inRange_sampleReport hRead
  refine ⟨⟨hDecisionText, hDecisionIn, hDecision _ hDecisionIn, hDecisionText'⟩,
    ⟨hEventText, hEventIn, hEvent _ hEventIn, hEventText'⟩,
    ⟨inRange_sampleReport, hRead, (hReportAgain _ _ hRead).2⟩, sampleReport, hRead, ?_⟩
  rw [hSummary, hFailures, hCancelled, hJob]
  decide

end ChangeGate
