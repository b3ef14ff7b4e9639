import ChangeGate.Form.Workflow
import ChangeGate.Proofs.Yaml.Reader

/-! What is known of a workflow that has been read: it is in order, and the number of jobs that it
lets run at once is a word. -/

namespace ChangeGate

open Yaml Yaml.Reader

/-- A number of jobs that may run at once, if there is one, is a word. -/
def Matrix.Bounded (m : Matrix) : Prop := ∀ n, m.maxParallel = some n → n ≤ Bits.values 32 - 1

def Matrix.Parts.Bounded (parts : Matrix.Parts) : Prop :=
  ∀ n, parts.maxParallel = some (some n) → n ≤ Bits.values 32 - 1

def Workflow.Parts.Bounded (parts : Workflow.Parts) : Prop :=
  ∀ m, parts.matrix = some m → m.Bounded

theorem Matrix.reader_yields : Matrix.reader.Yields Matrix.Bounded := by
  refine yields_record (Q := Matrix.Parts.Bounded) (fun field hMem => ?_) nofun ?_
  · simp only [List.mem_cons, List.not_mem_nil, or_false] at hMem
    rcases hMem with rfl | rfl | rfl | rfl
    · exact Field.keeps_of_unread fun _ _ => id
    · exact Field.keeps_of_unread fun _ _ => id
    · exact Field.keeps_of_unread fun _ _ => id
    · refine Field.keeps_of (fun outer => (yields_number _ _).option outer) ?_
      rintro asked parts hAsked - n ⟨⟩
      exact hAsked n rfl
  · intro parts m bounded hDone n hSome
    obtain ⟨axes, -, hDone⟩ := ok_of_bind hDone
    cases hDone
    cases hParallel : parts.maxParallel with
    | none => rw [hParallel] at hSome; cases hSome
    | some asked =>
        rw [hParallel] at hSome
        exact bounded n (hParallel.trans (congrArg some hSome))

theorem Workflow.reader_yields : Workflow.reader.Yields (·.matrix.Bounded) := by
  refine yields_record (Q := Workflow.Parts.Bounded) (fun field hMem => ?_) nofun ?_
  · simp only [List.mem_cons, List.not_mem_nil, or_false] at hMem
    rcases hMem with rfl | rfl | rfl | rfl | rfl | rfl | rfl
    · exact Field.keeps_of_unread fun _ _ => id
    · exact Field.keeps_of_unread fun _ _ => id
    · exact Field.keeps_of_unread fun _ _ => id
    · exact Field.keeps_of_unread fun _ _ => id
    · exact Field.keeps_of_unread fun _ _ => id
    · refine Field.keeps_of (fun _ => Matrix.reader_yields) ?_
      rintro matrix parts bounded - m ⟨⟩
      exact bounded
    · exact Field.keeps_of_unread fun _ _ => id
  · intro parts w bounded hDone
    obtain ⟨name, -, hDone⟩ := ok_of_bind hDone
    obtain ⟨matrix, hMatrix, hDone⟩ := ok_of_bind hDone
    obtain ⟨task, -, hDone⟩ := ok_of_bind hDone
    cases hDone
    exact bounded matrix (eq_some_of_required hMatrix)

/-- A workflow that has been read is in order, and its number of jobs at once is a word. -/
theorem Workflow.of_text {text : String} {w : Workflow} (h : Workflow.ofText text = .ok w) :
    w.check = .ok () ∧ w.matrix.Bounded := by
  obtain ⟨read, hRead, h⟩ := ok_of_bind h
  obtain ⟨_, hCheck, h⟩ := ok_of_bind h
  cases h
  have bounded := read_yields Workflow.reader_yields (ok_of_mapError hRead)
  exact ⟨ok_of_mapError hCheck, bounded⟩

end ChangeGate
