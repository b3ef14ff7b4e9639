import ChangeGate.Form.Decision
import ChangeGate.Proofs.Form.Scalar

/-! Decisions are read back from their JSON form, whichever their reason is. -/

namespace ChangeGate.Decision

open Json Json.Reader

/-- The number of paths considered is a word. -/
def Reason.InRange : Reason → Prop
  | .noMatch n => n ≤ Number.maxWord
  | _ => True

theorem Reason.read_toJson {source : Source} {depth : Nat} (hDepth : 0 < depth) {reason : Reason}
    (h : reason.InRange) :
    Whole reason.toJson ∧ Reason.reader source depth (.ofJson reason.toJson) = .ok reason := by
  cases reason with
  | matched path pattern =>
      have hKind : Kind.byName.lookup "matched" = some .matched := rfl
      refine tagged_of_first hKind (by simp) (by simpa [Json.depth]) ?_
      rw [contents]
      refine record_of_filled (r := { path := some path, pattern := some pattern }) ?_ rfl
      refine .field (restores_string _) trivial rfl rfl ?_
      exact .field (restores_string _) trivial rfl rfl (.nil _)
  | noMatch n =>
      have hKind : Kind.byName.lookup "no_match" = some .noMatch := rfl
      refine tagged_of_first hKind (by simp) (by simpa [Json.nat, Json.depth]) ?_
      rw [contents]
      refine record_of_filled (r := { considered := some n }) ?_ rfl
      exact .field restores_size h rfl rfl (.nil _)
  | noComparableParent detail =>
      have hKind : Kind.byName.lookup "no_comparable_parent" = some .noComparableParent := rfl
      refine tagged_of_first hKind (by simp) (by simpa [Json.depth]) ?_
      rw [contents]
      refine record_of_filled (r := { detail := some detail }) ?_ rfl
      exact .field (restores_string _) trivial rfl rfl (.nil _)

theorem Reason.inRange_of_contents (kind : Reason.Kind) :
    ∀ d reason, contents kind d = .ok reason → reason.InRange := by
  cases kind with
  | matched =>
      refine inRange_of_record (Q := fun _ => True) (fun _ _ _ _ _ _ _ => trivial) trivial ?_
      intro p reason _ h
      obtain ⟨path, -, h⟩ := ok_of_required h
      obtain ⟨pattern, -, h⟩ := ok_of_required h
      cases h
      trivial
  | noMatch =>
      refine inRange_of_record (Q := fun p => ∀ n, p.considered = some n → n ≤ Number.maxWord)
        ?_ nofun ?_
      · refine List.forall_mem_singleton.mpr (Field.keeps_of restores_size.inRange ?_)
        rintro n p hWord - _ ⟨⟩
        exact hWord
      · intro p reason hParts h
        obtain ⟨n, hConsidered, h⟩ := ok_of_required h
        cases h
        exact hParts n hConsidered
  | noComparableParent =>
      refine inRange_of_record (Q := fun _ => True) (fun _ _ _ _ _ _ _ => trivial) trivial ?_
      intro p reason _ h
      obtain ⟨detail, -, h⟩ := ok_of_required h
      cases h
      trivial

theorem Reason.restores (source : Source) {depth : Nat} (hDepth : 0 < depth) :
    Restores (reader source depth) toJson InRange := by
  refine .of (fun _ h => read_toJson hDepth h) fun d reason h => ?_
  obtain ⟨t, -, h⟩ := ok_of_bind h
  exact inRange_of_contents t.kind t.rest reason h

/-- The reason is in range. -/
def InRange (d : Decision) : Prop := d.reason.InRange

theorem restores (source : Source) {depth : Nat} (hDepth : 2 < depth) :
    Restores (reader source depth) toJson InRange := by
  have hReason : Restores (Reason.reader source (depth - 2)) Reason.toJson Reason.InRange :=
    Reason.restores source (Nat.sub_pos_of_lt hDepth)
  refine .of (fun d h => ?_) (inRange_of_record
    (Q := fun p => ∀ reason, p.reason = some reason → reason.InRange) ?_ nofun ?_)
  · refine record_of_filled (r := ⟨some d.changesDetected, some d.reason⟩) ?_ rfl
    refine .field restores_bool trivial rfl rfl ?_
    exact .field hReason h rfl rfl (.nil _)
  · simp only [List.forall_mem_cons]
    refine ⟨Field.keeps_of_unread fun _ _ => id, Field.keeps_of hReason.inRange ?_, nofun⟩
    rintro reason p hIn - _ ⟨⟩
    exact hIn
  · intro p d hParts h
    obtain ⟨_, -, h⟩ := ok_of_required h
    obtain ⟨reason, hReason, h⟩ := ok_of_required h
    cases h
    exact hParts reason hReason

end ChangeGate.Decision
