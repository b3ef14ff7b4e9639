import ChangeGate.Form.Scalar
import ChangeGate.Proofs.Ident
import ChangeGate.Proofs.Json.Reader
import ChangeGate.Proofs.Timestamp

/-! Identifiers, instants, revisions, outcomes and counts are read back from their JSON forms. -/

namespace ChangeGate

open Json Json.Reader

theorem Ident.restores (kind : Ident.Kind) :
    Restores (Ident.reader kind) Ident.toJson fun _ => True where
  whole id _ := .string _
  reads id _ := by
    rw [Ident.reader, Ident.toJson, Draft.ofJson, Json.Reader.string]
    simp only [bind, Except.bind, Uuid.ofText?_text]
    rfl
  inRange _ _ _ := trivial

theorem Timestamp.restores : Restores Timestamp.reader Timestamp.toJson Timestamp.InRange where
  whole t _ := .string _
  reads t h := by
    rw [Timestamp.reader, Timestamp.toJson, Draft.ofJson, Json.Reader.string]
    simp only [bind, Except.bind, Timestamp.ofText_text h]
    rfl
  inRange d t h := by
    obtain ⟨s, -, h⟩ := ok_of_bind h
    split at h
    · next hRead =>
        cases h
        exact Timestamp.inRange_of_text hRead
    · cases h

theorem Outcome.restores (source : Source) :
    Restores (Outcome.reader source) Outcome.toJson fun _ => True :=
  restores_enumeration fun o => by cases o <;> rfl

theorem Revisions.restores (source : Source) :
    Restores (Revisions.reader source) Revisions.toJson fun _ => True := by
  refine .of (fun r _ => ?_) fun _ _ _ => trivial
  refine record_of_filled (r := { base := some r.base, head := some r.head }) ?_ rfl
  refine .field (restores_string _) trivial rfl rfl ?_
  exact .field (restores_string _) trivial rfl rfl (.nil _)

namespace Summary

/-- The counts are words. -/
def InRange (s : Summary) : Prop :=
  s.succeeded ≤ Number.maxWord ∧ s.failed ≤ Number.maxWord ∧ s.skipped ≤ Number.maxWord ∧
    s.upstreamFailure ≤ Number.maxWord ∧ s.cancelled ≤ Number.maxWord

/-- The counts that have been read are words. -/
structure Parts.InRange (p : Parts) : Prop where
  succeeded : ∀ n, p.succeeded = some n → n ≤ Number.maxWord
  failed : ∀ n, p.failed = some n → n ≤ Number.maxWord
  skipped : ∀ n, p.skipped = some n → n ≤ Number.maxWord
  upstreamFailure : ∀ n, p.upstreamFailure = some n → n ≤ Number.maxWord
  cancelled : ∀ n, p.cancelled = some n → n ≤ Number.maxWord

theorem restores (source : Source) : Restores (reader source) toJson InRange := by
  refine .of (fun s h => ?_) (inRange_of_record (Q := Parts.InRange) ?_ ?_ ?_)
  · obtain ⟨hSucceeded, hFailed, hSkipped, hUpstream, hCancelled⟩ := h
    refine record_of_filled (r := ⟨s.succeeded, s.failed, s.skipped, s.upstreamFailure,
      s.cancelled⟩) ?_ rfl
    refine .field restores_size hSucceeded rfl rfl ?_
    refine .field restores_size hFailed rfl rfl ?_
    refine .field restores_size hSkipped rfl rfl ?_
    refine .field restores_size hUpstream rfl rfl ?_
    exact .field restores_size hCancelled rfl rfl (.nil _)
  · have hSize := restores_size.inRange
    simp only [List.forall_mem_cons]
    refine ⟨?_, ?_, ?_, ?_, ?_, nofun⟩
    · exact Field.keeps_of hSize fun n p hN h => { h with succeeded := of_some hN }
    · exact Field.keeps_of hSize fun n p hN h => { h with failed := of_some hN }
    · exact Field.keeps_of hSize fun n p hN h => { h with skipped := of_some hN }
    · exact Field.keeps_of hSize fun n p hN h => { h with upstreamFailure := of_some hN }
    · exact Field.keeps_of hSize fun n p hN h => { h with cancelled := of_some hN }
  · exact ⟨nofun, nofun, nofun, nofun, nofun⟩
  · intro p s hParts h
    obtain ⟨_, hSucceeded, h⟩ := ok_of_required h
    obtain ⟨_, hFailed, h⟩ := ok_of_required h
    obtain ⟨_, hSkipped, h⟩ := ok_of_required h
    obtain ⟨_, hUpstream, h⟩ := ok_of_required h
    obtain ⟨_, hCancelled, h⟩ := ok_of_required h
    cases h
    exact ⟨hParts.succeeded _ hSucceeded, hParts.failed _ hFailed, hParts.skipped _ hSkipped,
      hParts.upstreamFailure _ hUpstream, hParts.cancelled _ hCancelled⟩

end Summary

end ChangeGate
