import ChangeGate.Text.Blank

/-!
Pairs of revisions that bound a change. A revision of blanks, or of zeros only, stands for the
absence of one.
-/

namespace ChangeGate

/-- The revisions between which changes are looked for. -/
structure Revisions where
  base : String
  head : String
deriving DecidableEq, Repr

namespace Revisions

/-- The two revisions with two points between them. -/
def text (r : Revisions) : String := r.base ++ ".." ++ r.head

def isNull (revision : String) : Bool :=
  (Text.trim revision.toList).all (· == '0')

/-- A revision that stands for none: once it is trimmed, it is empty or there are only zeros. -/
def Null (revision : String) : Prop :=
  Text.trim revision.toList = [] ∨ ∀ c ∈ Text.trim revision.toList, c = '0'

theorem isNull_iff (revision : String) : isNull revision = true ↔ Null revision := by
  rw [isNull, List.all_eq_true, Null]
  constructor
  · exact fun hZeros => .inr fun c hMem => eq_of_beq (hZeros c hMem)
  · rintro (hEmpty | hZeros) c hMem
    · rw [hEmpty] at hMem
      cases hMem
    · rw [hZeros c hMem]
      rfl

instance (revision : String) : Decidable (Null revision) :=
  decidable_of_iff _ (isNull_iff revision)

theorem isNull_eq_false_iff (revision : String) : isNull revision = false ↔ ¬ Null revision := by
  rw [← isNull_iff, Bool.not_eq_true]

end Revisions

end ChangeGate
