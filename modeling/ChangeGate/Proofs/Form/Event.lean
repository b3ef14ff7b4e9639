import ChangeGate.Form.Event
import ChangeGate.Proofs.Form.Decision

/-! Events of every kind are read back from their JSON form. -/

namespace ChangeGate.Event

open Json Json.Reader

/-- The numbers fit their types and the instants are on the calendar. -/
def Body.InRange : Body → Prop
  | .runStarted _ _ at_ => at_.InRange
  | .matrixExpanded jobs gated alwaysRun =>
    jobs ≤ Number.maxWord ∧ gated ≤ Number.maxWord ∧ alwaysRun ≤ Number.maxWord
  | .decisionRecorded _ decision at_ => decision.InRange ∧ at_.InRange
  | .detectorFailed _ => True
  | .jobStarted _ _ at_ => at_.InRange
  | .jobOutput .. => True
  | .jobCompleted _ _ _ exitCode duration =>
    (∀ code, exitCode = some code → FitsInt32 code) ∧ ∀ n, duration = some n → n ≤ Number.maxWord
  | .runCancelled at_ => at_.InRange
  | .runCompleted _ summary duration at_ =>
    summary.InRange ∧ duration ≤ Number.maxWord ∧ at_.InRange

/-- What happened is in range. -/
def InRange (e : Event) : Prop := e.body.InRange

/-- The fields of an event as they are once all of its members have been read. -/
def parts (e : Event) : Parts :=
  match e.body with
  | .runStarted workflow revisions at_ =>
    { run := some e.run, name := some workflow, revisions := some revisions, at_ := some at_ }
  | .matrixExpanded jobs gated alwaysRun =>
    { run := some e.run, jobs := some jobs, gated := some gated, alwaysRun := some alwaysRun }
  | .decisionRecorded key decision at_ =>
    { run := some e.run, text := some key, decision := some decision, at_ := some at_ }
  | .detectorFailed error => { run := some e.run, text := some error }
  | .jobStarted job name at_ =>
    { run := some e.run, job := some job, name := some name, at_ := some at_ }
  | .jobOutput job line isStderr =>
    { run := some e.run, job := some job, text := some line, isStderr := some isStderr }
  | .jobCompleted job name outcome exitCode duration =>
    { run := some e.run, job := some job, name := some name, outcome := some outcome
      exitCode := some exitCode, duration := some duration }
  | .runCancelled at_ => { run := some e.run, at_ := some at_ }
  | .runCompleted workflow summary duration at_ =>
    { run := some e.run, name := some workflow, summary := some summary
      duration := some (some duration), at_ := some at_ }

/-- The members of an event fill the fields of its kind. -/
theorem filled_members (run : RunId) {body : Body} (h : body.InRange) :
    Filled (Parts.runField :: Parts.fields body.kind) { run := some run } body.members
      (parts ⟨run, body⟩) := by
  cases body with
  | runStarted workflow revisions at_ =>
      refine .field (restores_string _) trivial rfl rfl ?_
      refine .field (Revisions.restores .held) trivial rfl rfl ?_
      exact .field Timestamp.restores h rfl rfl (.nil _)
  | matrixExpanded jobs gated alwaysRun =>
      refine .field restores_size h.1 rfl rfl ?_
      refine .field restores_size h.2.1 rfl rfl ?_
      exact .field restores_size h.2.2 rfl rfl (.nil _)
  | decisionRecorded key decision at_ =>
      refine .field (restores_string _) trivial rfl rfl ?_
      refine .field (Decision.restores .held (by decide)) h.1 rfl rfl ?_
      exact .field Timestamp.restores h.2 rfl rfl (.nil _)
  | detectorFailed error => exact .field (restores_string _) trivial rfl rfl (.nil _)
  | jobStarted job name at_ =>
      refine .field (Ident.restores .job) trivial rfl rfl ?_
      refine .field (restores_string _) trivial rfl rfl ?_
      exact .field Timestamp.restores h rfl rfl (.nil _)
  | jobOutput job line isStderr =>
      refine .field (Ident.restores .job) trivial rfl rfl ?_
      refine .field (restores_string _) trivial rfl rfl ?_
      exact .field restores_bool trivial rfl rfl (.nil _)
  | jobCompleted job name outcome exitCode duration =>
      refine .field (Ident.restores .job) trivial rfl rfl ?_
      refine .field (restores_string _) trivial rfl rfl ?_
      refine .field (Outcome.restores .held) trivial rfl rfl ?_
      refine .field restores_optionalInt32 h.1 rfl rfl ?_
      exact .field restores_optionalCount h.2 rfl rfl (.nil _)
  | runCancelled at_ => exact .field Timestamp.restores h rfl rfl (.nil _)
  | runCompleted workflow summary duration at_ =>
      refine .field (restores_string _) trivial rfl rfl ?_
      refine .field (Summary.restores .held) h.1 rfl rfl ?_
      refine .field (b := some duration) (restores_present restores_count) ⟨_, rfl, h.2.1⟩
        rfl rfl ?_
      exact .field Timestamp.restores h.2.2 rfl rfl (.nil _)

theorem body_parts (e : Event) : e.parts.body e.body.kind = .ok e.body := by
  obtain ⟨run, body⟩ := e
  cases body <;> rfl

theorem run_parts (e : Event) : e.parts.run = some e.run := by
  obtain ⟨run, body⟩ := e
  cases body <;> rfl

theorem contents_members {e : Event} (h : e.InRange) :
    Whole (.object (("run_id", e.run.toJson) :: e.body.members)) ∧
      contents e.body.kind (.ofJson (.object (("run_id", e.run.toJson) :: e.body.members))) =
        .ok e := by
  refine record_of_filled (.field (Ident.restores .run) trivial rfl rfl (filled_members e.run h)) ?_
  rw [run_parts, required, body_parts]
  rfl

theorem ne_type_of_mem {body : Body} : ∀ m ∈ body.members, m.1 ≠ "type" := by
  cases body <;> simp [Body.members]

theorem depth_decision (d : Decision) : d.toJson.depth = 2 := by
  obtain ⟨changes, reason⟩ := d
  cases reason <;> rfl

theorem depth_ofOption {α : Type} {form : α → Json} (hForm : ∀ a, (form a).depth = 0)
    (o : Option α) : (Json.ofOption form o).depth = 0 := by
  cases o with
  | none => rfl
  | some a => exact hForm a

theorem depth_le_of_mem {body : Body} : ∀ m ∈ body.members, m.2.depth ≤ 2 := by
  have hInt (o : Option Int) : (Json.ofOption .int o).depth = 0 := depth_ofOption (fun _ => rfl) o
  have hNat (o : Option Nat) : (Json.ofOption .nat o).depth = 0 := depth_ofOption (fun _ => rfl) o
  cases body <;>
    simp [Body.members, depth_decision, hInt, hNat, Json.depth, Json.depthMembers, Json.nat,
      Ident.toJson, Timestamp.toJson, Revisions.toJson, Outcome.toJson, Summary.toJson]

/-- What has been read of an event is in range. -/
structure Parts.InRange (p : Parts) : Prop where
  at_ : ∀ t, p.at_ = some t → t.InRange
  jobs : ∀ n, p.jobs = some n → n ≤ Number.maxWord
  gated : ∀ n, p.gated = some n → n ≤ Number.maxWord
  alwaysRun : ∀ n, p.alwaysRun = some n → n ≤ Number.maxWord
  decision : ∀ d, p.decision = some d → d.InRange
  exitCode : ∀ code, p.exitCode.join = some code → FitsInt32 code
  summary : ∀ s, p.summary = some s → s.InRange
  duration : ∀ n, p.duration.join = some n → n ≤ Number.maxWord

theorem keeps_jobField : Parts.jobField.Keeps Parts.InRange :=
  Field.keeps_of_unread fun _ _ h => { h with }

theorem keeps_nameField (name : String) : (Parts.nameField name).Keeps Parts.InRange :=
  Field.keeps_of_unread fun _ _ h => { h with }

theorem keeps_textField (name : String) : (Parts.textField name).Keeps Parts.InRange :=
  Field.keeps_of_unread fun _ _ h => { h with }

theorem keeps_atField (name : String) : (Parts.atField name).Keeps Parts.InRange :=
  Field.keeps_of Timestamp.restores.inRange fun _ _ hIn h => { h with at_ := of_some hIn }

theorem keeps_fields (kind : Kind) : ∀ field ∈ Parts.fields kind, field.Keeps Parts.InRange := by
  cases kind <;> simp only [Parts.fields, List.forall_mem_cons]
  case runStarted =>
    refine ⟨keeps_nameField _, ?_, keeps_atField _, nofun⟩
    exact Field.keeps_of_unread fun _ _ h => { h with }
  case matrixExpanded =>
    refine ⟨?_, ?_, ?_, nofun⟩
    · exact Field.keeps_of restores_size.inRange fun n p hIn h => { h with jobs := of_some hIn }
    · exact Field.keeps_of restores_size.inRange fun n p hIn h => { h with gated := of_some hIn }
    · exact Field.keeps_of restores_size.inRange fun n p hIn h =>
        { h with alwaysRun := of_some hIn }
  case decisionRecorded =>
    refine ⟨keeps_textField _, ?_, keeps_atField _, nofun⟩
    have hDecision := (Decision.restores .held (by decide : 2 < Json.maxDepth)).inRange
    exact Field.keeps_of hDecision fun d p hIn h => { h with decision := of_some hIn }
  case detectorFailed => exact ⟨keeps_textField _, nofun⟩
  case jobStarted => exact ⟨keeps_jobField, keeps_nameField _, keeps_atField _, nofun⟩
  case jobOutput =>
    refine ⟨keeps_jobField, keeps_textField _, ?_, nofun⟩
    exact Field.keeps_of_unread fun _ _ h => { h with }
  case jobCompleted =>
    refine ⟨keeps_jobField, keeps_nameField _, ?_, ?_, ?_, nofun⟩
    · exact Field.keeps_of_unread fun _ _ h => { h with }
    · exact Field.keeps_of restores_optionalInt32.inRange fun code p hIn h =>
        { h with exitCode := hIn }
    · exact Field.keeps_of restores_optionalCount.inRange fun n p hIn h =>
        { h with duration := hIn }
  case runCancelled => exact ⟨keeps_atField _, nofun⟩
  case runCompleted =>
    refine ⟨keeps_nameField _, ?_, ?_, keeps_atField _, nofun⟩
    · exact Field.keeps_of (Summary.restores .held).inRange fun s p hIn h =>
        { h with summary := of_some hIn }
    · refine Field.keeps_of (restores_present restores_count).inRange ?_
      rintro _ p ⟨n, rfl, hIn⟩ h
      exact { h with duration := of_some hIn }

theorem inRange_of_body {kind : Kind} {p : Parts} {body : Body} (hParts : p.InRange)
    (h : p.body kind = .ok body) : body.InRange := by
  cases kind with
  | runStarted =>
      obtain ⟨_, -, h⟩ := ok_of_required h
      obtain ⟨_, -, h⟩ := ok_of_required h
      obtain ⟨_, hAt, h⟩ := ok_of_required h
      cases h
      exact hParts.at_ _ hAt
  | matrixExpanded =>
      obtain ⟨_, hJobs, h⟩ := ok_of_required h
      obtain ⟨_, hGated, h⟩ := ok_of_required h
      obtain ⟨_, hAlwaysRun, h⟩ := ok_of_required h
      cases h
      exact ⟨hParts.jobs _ hJobs, hParts.gated _ hGated, hParts.alwaysRun _ hAlwaysRun⟩
  | decisionRecorded =>
      obtain ⟨_, -, h⟩ := ok_of_required h
      obtain ⟨_, hDecision, h⟩ := ok_of_required h
      obtain ⟨_, hAt, h⟩ := ok_of_required h
      cases h
      exact ⟨hParts.decision _ hDecision, hParts.at_ _ hAt⟩
  | detectorFailed =>
      obtain ⟨_, -, h⟩ := ok_of_required h
      cases h
      trivial
  | jobStarted =>
      obtain ⟨_, -, h⟩ := ok_of_required h
      obtain ⟨_, -, h⟩ := ok_of_required h
      obtain ⟨_, hAt, h⟩ := ok_of_required h
      cases h
      exact hParts.at_ _ hAt
  | jobOutput =>
      obtain ⟨_, -, h⟩ := ok_of_required h
      obtain ⟨_, -, h⟩ := ok_of_required h
      obtain ⟨_, -, h⟩ := ok_of_required h
      cases h
      trivial
  | jobCompleted =>
      obtain ⟨_, -, h⟩ := ok_of_required h
      obtain ⟨_, -, h⟩ := ok_of_required h
      obtain ⟨_, -, h⟩ := ok_of_required h
      cases h
      exact ⟨hParts.exitCode, hParts.duration⟩
  | runCancelled =>
      obtain ⟨_, hAt, h⟩ := ok_of_required h
      cases h
      exact hParts.at_ _ hAt
  | runCompleted =>
      obtain ⟨_, -, h⟩ := ok_of_required h
      obtain ⟨_, hSummary, h⟩ := ok_of_required h
      obtain ⟨_, hDuration, h⟩ := ok_of_required h
      obtain ⟨_, hAt, h⟩ := ok_of_required h
      cases h
      exact ⟨hParts.summary _ hSummary, hParts.duration _ hDuration, hParts.at_ _ hAt⟩

theorem inRange_of_contents (kind : Kind) :
    ∀ d e, contents kind d = .ok e → e.InRange := by
  refine inRange_of_record (Q := Parts.InRange) (List.forall_mem_cons.mpr ⟨?_, keeps_fields kind⟩)
    ⟨nofun, nofun, nofun, nofun, nofun, nofun, nofun, nofun⟩ ?_
  · exact Field.keeps_of_unread fun _ _ h => { h with }
  · intro p e hParts h
    obtain ⟨run, -, h⟩ := ok_of_required h
    obtain ⟨body, hBody, h⟩ := ok_of_bind h
    cases h
    exact inRange_of_body hParts hBody

theorem lookup_name (kind : Kind) : Kind.byName.lookup kind.name = some kind := by
  cases kind <;> rfl

theorem restores (source : Source) {depth : Nat} (hDepth : 3 < depth) :
    Restores (reader source depth) toJson InRange := by
  refine .of (fun e h => ?_) fun d e h => ?_
  · refine tagged_of_first (lookup_name e.body.kind) ?_ ?_ (contents_members h)
    · exact List.forall_mem_cons.mpr ⟨by simp, ne_type_of_mem⟩
    · refine List.forall_mem_cons.mpr ⟨?_, fun m hMem => ?_⟩
      · change 0 < depth - 1
        omega
      · have hMember := depth_le_of_mem m hMem
        omega
  · obtain ⟨t, -, h⟩ := ok_of_bind h
    exact inRange_of_contents t.kind t.rest e h

end ChangeGate.Event
