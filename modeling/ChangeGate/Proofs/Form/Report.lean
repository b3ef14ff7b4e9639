import ChangeGate.Form.Report
import ChangeGate.Proofs.Form.Decision

/-! Reports are read back from their JSON form, with the values of the jobs in their order. -/

namespace ChangeGate

open Json Json.Reader

namespace JobReport

/-- The numbers fit their types and the instants are on the calendar. -/
structure InRange (r : JobReport) : Prop where
  index : r.index ≤ Number.maxWord
  exitCode : ∀ code, r.exitCode = some code → FitsInt32 code
  startedAt : ∀ t, r.startedAt = some t → t.InRange
  completedAt : r.completedAt.InRange
  duration : ∀ n, r.duration = some n → n ≤ Number.maxWord

/-- What has been read of a report is in range. -/
structure Parts.InRange (p : Parts) : Prop where
  index : ∀ n, p.index = some n → n ≤ Number.maxWord
  exitCode : ∀ code, p.exitCode.join = some code → FitsInt32 code
  startedAt : ∀ t, p.startedAt.join = some t → t.InRange
  completedAt : ∀ t, p.completedAt = some t → t.InRange
  duration : ∀ n, p.duration.join = some n → n ≤ Number.maxWord

theorem keeps_fields (source : Source) : ∀ field ∈ fields source, field.Keeps Parts.InRange := by
  have hStarted : Restores (option Timestamp.reader) (.ofOption Timestamp.toJson) _ :=
    restores_option Timestamp.restores nofun
  simp only [fields, List.forall_mem_cons]
  refine ⟨?_, ?_, ?_, ?_, ?_, ?_, ?_, ?_, ?_, ?_, ?_, ?_, nofun⟩
  · exact Field.keeps_of_unread fun _ _ h => { h with }
  · exact Field.keeps_of restores_size.inRange fun n p hIn h => { h with index := of_some hIn }
  · exact Field.keeps_of_unread fun _ _ h => { h with }
  · exact Field.keeps_of_unread fun _ _ h => { h with }
  · exact Field.keeps_of_unread fun _ _ h => { h with }
  · exact Field.keeps_of_unread fun _ _ h => { h with }
  · exact Field.keeps_of_unread fun _ _ h => { h with }
  · exact Field.keeps_of restores_optionalInt32.inRange fun code p hIn h => { h with exitCode := hIn }
  · exact Field.keeps_of_unread fun _ _ h => { h with }
  · exact Field.keeps_of hStarted.inRange fun t p hIn h => { h with startedAt := hIn }
  · exact Field.keeps_of Timestamp.restores.inRange fun t p hIn h =>
      { h with completedAt := of_some hIn }
  · exact Field.keeps_of restores_optionalCount.inRange fun n p hIn h => { h with duration := hIn }

theorem restores (source : Source) : Restores (reader source) toJson InRange := by
  refine .of (fun r h => ?_) (inRange_of_record (keeps_fields source) ?_ ?_)
  · refine record_of_filled (r := {
      id := some r.id, index := some r.index, name := some r.name
      parameters := some r.parameters, alwaysRun := some r.alwaysRun, gated := some r.gated
      outcome := some r.outcome, exitCode := some r.exitCode, message := some r.message
      startedAt := some r.startedAt, completedAt := some r.completedAt
      duration := some r.duration }) ?_ rfl
    refine .field (Ident.restores .job) trivial rfl rfl ?_
    refine .field restores_size h.index rfl rfl ?_
    refine .field (restores_string _) trivial rfl rfl ?_
    refine .field (restores_texts _) trivial rfl rfl ?_
    refine .field restores_bool trivial rfl rfl ?_
    refine .field restores_bool trivial rfl rfl ?_
    refine .field (Outcome.restores source) trivial rfl rfl ?_
    refine .field restores_optionalInt32 h.exitCode rfl rfl ?_
    refine .field (restores_option (restores_string _) nofun) (fun _ _ => trivial) rfl rfl ?_
    refine .field (restores_option Timestamp.restores nofun) h.startedAt rfl rfl ?_
    refine .field Timestamp.restores h.completedAt rfl rfl ?_
    exact .field restores_optionalCount h.duration rfl rfl (.nil _)
  · exact ⟨nofun, nofun, nofun, nofun, nofun⟩
  · intro p r hParts h
    obtain ⟨_, -, h⟩ := ok_of_required h
    obtain ⟨_, hIndex, h⟩ := ok_of_required h
    obtain ⟨_, -, h⟩ := ok_of_required h
    obtain ⟨_, -, h⟩ := ok_of_required h
    obtain ⟨_, -, h⟩ := ok_of_required h
    obtain ⟨_, -, h⟩ := ok_of_required h
    obtain ⟨_, -, h⟩ := ok_of_required h
    obtain ⟨_, hCompleted, h⟩ := ok_of_required h
    cases h
    exact ⟨hParts.index _ hIndex, hParts.exitCode, hParts.startedAt,
      hParts.completedAt _ hCompleted, hParts.duration⟩

end JobReport

namespace RunReport

/-- The decision and the jobs are in range, the instants on the calendar and the duration a word. -/
structure InRange (r : RunReport) : Prop where
  decision : ∀ d, r.decision = some d → d.InRange
  jobs : ∀ job ∈ r.jobs, job.InRange
  startedAt : r.startedAt.InRange
  completedAt : r.completedAt.InRange
  duration : r.duration ≤ Number.maxWord

/-- What has been read of a report is in range. -/
structure Parts.InRange (p : Parts) : Prop where
  decision : ∀ d, p.decision.join = some d → d.InRange
  jobs : ∀ jobs, p.jobs = some jobs → ∀ job ∈ jobs, job.InRange
  startedAt : ∀ t, p.startedAt = some t → t.InRange
  completedAt : ∀ t, p.completedAt = some t → t.InRange
  duration : ∀ n, p.duration = some n → n ≤ Number.maxWord

theorem restores_decision (source : Source) {depth : Nat} (hDepth : 3 < depth) :
    Restores (option (Decision.reader source (depth - 1))) (.ofOption Decision.toJson)
      fun o => ∀ d, o = some d → d.InRange :=
  restores_option (Decision.restores source (by omega)) nofun

theorem keeps_fields (source : Source) {depth : Nat} (hDepth : 3 < depth) :
    ∀ field ∈ fields source depth, field.Keeps Parts.InRange := by
  have hDecision := (restores_decision source hDepth).inRange
  have hJobs := (restores_list (JobReport.restores source)).inRange
  simp only [fields, List.forall_mem_cons]
  refine ⟨?_, ?_, ?_, ?_, ?_, ?_, ?_, ?_, ?_, nofun⟩
  · exact Field.keeps_of_unread fun _ _ h => { h with }
  · exact Field.keeps_of_unread fun _ _ h => { h with }
  · exact Field.keeps_of_unread fun _ _ h => { h with }
  · exact Field.keeps_of hDecision fun d p hIn h => { h with decision := hIn }
  · exact Field.keeps_of_unread fun _ _ h => { h with }
  · exact Field.keeps_of hJobs fun jobs p hIn h => { h with jobs := of_some hIn }
  · exact Field.keeps_of Timestamp.restores.inRange fun t p hIn h =>
      { h with startedAt := of_some hIn }
  · exact Field.keeps_of Timestamp.restores.inRange fun t p hIn h =>
      { h with completedAt := of_some hIn }
  · exact Field.keeps_of restores_count.inRange fun n p hIn h => { h with duration := of_some hIn }

theorem restores (source : Source) {depth : Nat} (hDepth : 3 < depth) :
    Restores (reader source depth) toJson InRange := by
  refine .of (fun r h => ?_) (inRange_of_record (keeps_fields source hDepth) ?_ ?_)
  · refine record_of_filled (r := {
      id := some r.id, workflow := some r.workflow, revisions := some r.revisions
      decision := some r.decision, detectorError := some r.detectorError, jobs := some r.jobs
      startedAt := some r.startedAt, completedAt := some r.completedAt
      duration := some r.duration }) ?_ rfl
    refine .field (Ident.restores .run) trivial rfl rfl ?_
    refine .field (restores_string _) trivial rfl rfl ?_
    refine .field (Revisions.restores source) trivial rfl rfl ?_
    refine .field (restores_decision source hDepth) h.decision rfl rfl ?_
    refine .field (restores_option (restores_string _) nofun) (fun _ _ => trivial) rfl rfl ?_
    refine .field (b := r.jobs) (restores_list (JobReport.restores source)) h.jobs rfl rfl ?_
    refine .field Timestamp.restores h.startedAt rfl rfl ?_
    refine .field Timestamp.restores h.completedAt rfl rfl ?_
    exact .field restores_count h.duration rfl rfl (.nil _)
  · exact ⟨nofun, nofun, nofun, nofun, nofun⟩
  · intro p r hParts h
    obtain ⟨_, -, h⟩ := ok_of_required h
    obtain ⟨_, -, h⟩ := ok_of_required h
    obtain ⟨_, -, h⟩ := ok_of_required h
    obtain ⟨_, hJobs, h⟩ := ok_of_required h
    obtain ⟨_, hStarted, h⟩ := ok_of_required h
    obtain ⟨_, hCompleted, h⟩ := ok_of_required h
    obtain ⟨_, hDuration, h⟩ := ok_of_required h
    cases h
    exact ⟨hParts.decision, hParts.jobs _ hJobs, hParts.startedAt _ hStarted,
      hParts.completedAt _ hCompleted, hParts.duration _ hDuration⟩

end RunReport

end ChangeGate
