import XmlDelta.Proofs.Compare.Results

set_option autoImplicit false

namespace XmlDelta.Compare

open XmlDelta.Document (Element)
open XmlDelta.Keyed (LastOf)

def Verdict.added : Verdict → List Element
  | invalid _ => []
  | compared c => c.additions

def Verdict.removed : Verdict → List Element
  | invalid _ => []
  | compared c => c.removals

theorem sum_additions (ts : List TagReport) :
    (ts.map TagReport.additions).sum = (ts.flatMap fun t => t.verdict.added).length := by
  have length (t : TagReport) : t.additions = t.verdict.added.length := by
    cases found : t.verdict <;> simp [TagReport.additions, found, Verdict.additionCount, Verdict.added]
  rw [List.length_flatMap]
  congr 1
  exact List.map_congr_left fun t _ => length t

theorem sum_removals (ts : List TagReport) :
    (ts.map TagReport.removals).sum = (ts.flatMap fun t => t.verdict.removed).length := by
  have length (t : TagReport) : t.removals = t.verdict.removed.length := by
    cases found : t.verdict <;> simp [TagReport.removals, found, Verdict.removalCount, Verdict.removed]
  rw [List.length_flatMap]
  congr 1
  exact List.map_congr_left fun t _ => length t

namespace Results

theorem jobsCompared_add_jobsFailed (r : Results) :
    r.jobsCompared + r.jobsFailed = r.reports.length := by
  rw [jobsCompared_eq, jobsFailed_eq, Nat.add_comm,
    List.length_eq_countP_add_countP fun j => j.outcome.isFailed]
  simp

theorem labels_aggregate (rs : List JobReport) (d : Micros) :
    (aggregate rs d).labels = (rs.map JobReport.label).eraseDups :=
  (Keyed.map_key_values_index rs).trans (Keyed.keys_index rs)

theorem get?_aggregate (rs : List JobReport) (d : Micros) (l : String) :
    (aggregate rs d).get? l = rs.reverse.find? fun j => j.label == l :=
  Keyed.find?_values_index l rs

theorem get?_aggregate_eq_some_iff {rs : List JobReport} {d : Micros} {l : String}
    {j : JobReport} : (aggregate rs d).get? l = some j ↔ j.label = l ∧ LastOf JobReport.label rs j := by
  rw [get?_aggregate]
  constructor
  · intro found
    obtain rfl : j.label = l := by simpa using List.find?_some found
    exact ⟨rfl, Keyed.lastOf_iff_find?.mpr found⟩
  · rintro ⟨rfl, last⟩
    exact (get?_aggregate rs d _).symm.trans (get?_aggregate_of_lastOf last d)

theorem get?_aggregate_eq_none_iff {rs : List JobReport} {d : Micros} {l : String} :
    (aggregate rs d).get? l = none ↔ l ∉ rs.map JobReport.label := by
  rw [get?_aggregate, List.find?_eq_none]
  simp

/-- Which of the reports `rs` are kept, and that nothing but what is in these is counted. -/
structure IsSummaryOf (r : Results) (rs : List JobReport) : Prop where
  labels : r.labels = (rs.map JobReport.label).eraseDups
  kept : ∀ j, j ∈ r.reports ↔ LastOf JobReport.label rs j
  found : ∀ l j, r.get? l = some j ↔ j.label = l ∧ LastOf JobReport.label rs j
  absent : ∀ l, r.get? l = none ↔ l ∉ rs.map JobReport.label
  compared : r.jobsCompared = r.reports.countP fun j => !j.outcome.isFailed
  failed : r.jobsFailed = r.reports.countP fun j => j.outcome.isFailed
  jobs : r.jobsCompared + r.jobsFailed = r.reports.length
  tags : r.tagsCompared = (r.reports.map fun j => j.outcome.measure List.length).sum
  invalid : r.tagsInvalid =
    (r.reports.map fun j => j.outcome.measure (List.countP fun t => t.verdict.isInvalid)).sum
  additions : r.additions = (r.reports.map fun j =>
    j.outcome.measure fun ts => (ts.flatMap fun t => t.verdict.added).length).sum
  removals : r.removals = (r.reports.map fun j =>
    j.outcome.measure fun ts => (ts.flatMap fun t => t.verdict.removed).length).sum
  changes : r.additions + r.removals = (r.reports.map fun j =>
    j.outcome.measure fun ts => (ts.map fun t => t.verdict.changeCount).sum).sum
  hasChanges : r.hasChanges = true ↔ ∃ j ∈ r.reports, j.Changed
  hasFailures : r.hasFailures = true ↔ ∃ j ∈ r.reports, j.Faulty

theorem isSummaryOf_aggregate (rs : List JobReport) (d : Micros) :
    (aggregate rs d).IsSummaryOf rs where
  labels := labels_aggregate rs d
  kept := fun _ => mem_reports_aggregate_iff
  found := fun _ _ => get?_aggregate_eq_some_iff
  absent := fun _ => get?_aggregate_eq_none_iff
  compared := jobsCompared_eq _
  failed := jobsFailed_eq _
  jobs := jobsCompared_add_jobsFailed _
  tags := tagsCompared_eq _
  invalid := tagsInvalid_eq _
  additions := by simp only [additions_eq, sum_additions]
  removals := by simp only [removals_eq, sum_removals]
  changes := changes_eq _
  hasChanges := hasChanges_iff _
  hasFailures := hasFailures_iff _

theorem aggregate_append (xs ys : List JobReport) (d e : Micros) :
    aggregate ((aggregate xs d).reports ++ ys) e = aggregate (xs ++ ys) e := by
  simp only [aggregate, Keyed.index_values_append]

theorem aggregate_append_self (xs ys : List JobReport) (d : Micros) :
    aggregate (xs ++ ys ++ ys) d = aggregate (xs ++ ys) d := by
  simp only [aggregate, Keyed.index_append_self]

end Results

end XmlDelta.Compare
