import ChangeGate.Report

/-! The counts of a report: each is the number of jobs that ended in that way. -/

namespace ChangeGate

/-- The count of an outcome. -/
def Summary.count (s : Summary) : Outcome → Nat
  | .succeeded => s.succeeded
  | .failed => s.failed
  | .skipped => s.skipped
  | .upstreamFailure => s.upstreamFailure
  | .cancelled => s.cancelled

theorem Summary.count_record (s : Summary) (o o' : Outcome) :
    (s.record o).count o' = s.count o' + if o = o' then 1 else 0 := by
  cases o <;> cases o' <;> rfl

theorem Summary.count_foldl (s : Summary) (outcomes : List Outcome) (o : Outcome) :
    (outcomes.foldl record s).count o = s.count o + outcomes.count o := by
  induction outcomes generalizing s with
  | nil => rfl
  | cons first rest ih =>
      rw [List.foldl_cons, ih, count_record, List.count_cons]
      simp only [beq_iff_eq]
      omega

/-- The summary of a report counts the jobs of each outcome. -/
theorem RunReport.count_summary (report : RunReport) (o : Outcome) :
    report.summary.count o = report.jobs.countP (·.outcome = o) := by
  have hZero : Summary.count {} o = 0 := by cases o <;> rfl
  rw [summary, Summary.ofOutcomes, Summary.count_foldl, hZero, Nat.zero_add, List.count_eq_countP,
    List.countP_map]
  congr 1

end ChangeGate
