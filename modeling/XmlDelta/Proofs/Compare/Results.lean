import Mathlib.Algebra.BigOperators.Group.List.Basic
import Mathlib.Algebra.GroupWithZero.Nat
import XmlDelta.Compare.Results
import XmlDelta.Proofs.Keyed.Index

set_option autoImplicit false

namespace XmlDelta.Compare

theorem Verdict.isInvalid_iff (v : Verdict) :
    v.isInvalid = true ↔ ∃ reason, v = .invalid reason := by
  cases v <;> simp [isInvalid]

namespace Outcome

def isFailed : Outcome → Bool
  | failed _ => true
  | compared _ => false

def measure (f : List TagReport → Nat) : Outcome → Nat
  | compared ts => f ts
  | failed _ => 0

theorem measure_add (f g : List TagReport → Nat) (o : Outcome) :
    o.measure f + o.measure g = o.measure fun ts => f ts + g ts := by
  cases o <;> rfl

theorem measure_pos_iff (f : List TagReport → Nat) (o : Outcome) :
    0 < o.measure f ↔ ∃ ts, o = .compared ts ∧ 0 < f ts := by
  cases o <;> simp [measure]

end Outcome

namespace JobReport

def Faulty (r : JobReport) : Prop :=
  match r.outcome with
  | .failed _ => True
  | .compared ts => ∃ t ∈ ts, ∃ reason, t.verdict = .invalid reason

def Changed (r : JobReport) : Prop :=
  ∃ ts, r.outcome = .compared ts ∧ ∃ t ∈ ts, 0 < t.verdict.changeCount

def Unchanged (r : JobReport) : Prop :=
  ∃ ts, r.outcome = .compared ts ∧ ∀ t ∈ ts, t.verdict = .compared ⟨[], []⟩

theorem unchanged_iff (r : JobReport) : r.Unchanged ↔ ¬ r.Faulty ∧ ¬ r.Changed := by
  have tag (v : Verdict) :
      v = .compared ⟨[], []⟩ ↔ (¬ ∃ reason, v = .invalid reason) ∧ ¬ 0 < v.changeCount := by
    cases v with
    | invalid reason => simp
    | compared c =>
      obtain ⟨additions, removals⟩ := c
      simp [Verdict.changeCount, Verdict.additionCount, Verdict.removalCount]
  unfold Unchanged Faulty Changed
  cases r.outcome with
  | failed f => simp
  | compared ts =>
    simp only [Outcome.compared.injEq, exists_eq_left', tag]
    simp only [not_exists, not_and, ← forall_and]

theorem label_lasting (d : Micros) (r : JobReport) : (r.lasting d).label = r.label :=
  rfl

theorem faulty_lasting_iff (d : Micros) (r : JobReport) : (r.lasting d).Faulty ↔ r.Faulty :=
  .rfl

theorem changed_lasting_iff (d : Micros) (r : JobReport) : (r.lasting d).Changed ↔ r.Changed :=
  .rfl

end JobReport

namespace Results

theorem mem_reports_aggregate_iff {rs : List JobReport} {d : Micros} {r : JobReport} :
    r ∈ (aggregate rs d).reports ↔ Keyed.LastOf JobReport.label rs r :=
  Keyed.mem_values_index_iff

theorem withDuration_aggregate (rs : List JobReport) (d e : Micros) :
    (aggregate rs d).withDuration e = aggregate (rs.map (JobReport.lasting e)) e := by
  rw [withDuration, aggregate, aggregate, Keyed.values_index_map (JobReport.label_lasting e)]

theorem get?_aggregate_of_lastOf {rs : List JobReport} {r : JobReport}
    (last : Keyed.LastOf JobReport.label rs r) (d : Micros) :
    (aggregate rs d).get? r.label = some r := by
  rw [get?, aggregate, Keyed.find?_values_index]
  exact Keyed.lastOf_iff_find?.mp last

end Results

namespace Tally

theorem addTag_eq (n : Tally) (t : TagReport) :
    n.addTag t = { n with
      tagsCompared := n.tagsCompared + 1
      tagsInvalid := n.tagsInvalid + if t.verdict.isInvalid then 1 else 0
      additions := n.additions + t.additions
      removals := n.removals + t.removals } := by
  obtain ⟨tag, verdict⟩ := t
  cases verdict <;> rfl

theorem foldl_addTag (n : Tally) (ts : List TagReport) :
    ts.foldl addTag n = { n with
      tagsCompared := n.tagsCompared + ts.length
      tagsInvalid := n.tagsInvalid + ts.countP fun t => t.verdict.isInvalid
      additions := n.additions + (ts.map TagReport.additions).sum
      removals := n.removals + (ts.map TagReport.removals).sum } := by
  induction ts generalizing n with
  | nil => rfl
  | cons t ts ih =>
    rw [List.foldl_cons, ih, addTag_eq]
    simp only [List.length_cons, List.countP_cons, List.map_cons, List.sum_cons, Nat.add_assoc,
      Nat.add_comm (ts.countP _), Nat.add_comm ts.length]

theorem addJob_eq (n : Tally) (r : JobReport) :
    n.addJob r =
      { jobsCompared := n.jobsCompared + if !r.outcome.isFailed then 1 else 0
        jobsFailed := n.jobsFailed + if r.outcome.isFailed then 1 else 0
        tagsCompared := n.tagsCompared + r.outcome.measure List.length
        tagsInvalid :=
          n.tagsInvalid + r.outcome.measure (List.countP fun t => t.verdict.isInvalid)
        additions := n.additions + r.outcome.measure fun ts => (ts.map TagReport.additions).sum
        removals := n.removals + r.outcome.measure fun ts => (ts.map TagReport.removals).sum } := by
  unfold addJob
  cases r.outcome with
  | failed f => rfl
  | compared ts => exact foldl_addTag _ ts

theorem foldl_addJob (n : Tally) (rs : List JobReport) :
    rs.foldl addJob n =
      { jobsCompared := n.jobsCompared + rs.countP fun r => !r.outcome.isFailed
        jobsFailed := n.jobsFailed + rs.countP fun r => r.outcome.isFailed
        tagsCompared := n.tagsCompared + (rs.map fun r => r.outcome.measure List.length).sum
        tagsInvalid := n.tagsInvalid +
          (rs.map fun r => r.outcome.measure (List.countP fun t => t.verdict.isInvalid)).sum
        additions := n.additions +
          (rs.map fun r => r.outcome.measure fun ts => (ts.map TagReport.additions).sum).sum
        removals := n.removals +
          (rs.map fun r => r.outcome.measure fun ts => (ts.map TagReport.removals).sum).sum } := by
  induction rs generalizing n with
  | nil => rfl
  | cons r rs ih =>
    rw [List.foldl_cons, ih, addJob_eq]
    simp only [List.countP_cons, List.map_cons, List.sum_cons, Nat.add_assoc,
      Nat.add_comm (rs.countP _)]

end Tally

namespace Results

variable (r : Results)

theorem tally_eq :
    r.tally =
      { jobsCompared := r.reports.countP fun j => !j.outcome.isFailed
        jobsFailed := r.reports.countP fun j => j.outcome.isFailed
        tagsCompared := (r.reports.map fun j => j.outcome.measure List.length).sum
        tagsInvalid :=
          (r.reports.map fun j => j.outcome.measure (List.countP fun t => t.verdict.isInvalid)).sum
        additions :=
          (r.reports.map fun j => j.outcome.measure fun ts => (ts.map TagReport.additions).sum).sum
        removals :=
          (r.reports.map fun j => j.outcome.measure fun ts => (ts.map TagReport.removals).sum).sum
      } := by
  simp only [tally, Tally.foldl_addJob, Nat.zero_add]

theorem jobsCompared_eq : r.jobsCompared = r.reports.countP fun j => !j.outcome.isFailed := by
  rw [jobsCompared, tally_eq]

theorem jobsFailed_eq : r.jobsFailed = r.reports.countP fun j => j.outcome.isFailed := by
  rw [jobsFailed, tally_eq]

theorem tagsCompared_eq :
    r.tagsCompared = (r.reports.map fun j => j.outcome.measure List.length).sum := by
  rw [tagsCompared, tally_eq]

theorem tagsInvalid_eq : r.tagsInvalid =
    (r.reports.map fun j => j.outcome.measure (List.countP fun t => t.verdict.isInvalid)).sum := by
  rw [tagsInvalid, tally_eq]

theorem additions_eq : r.additions =
    (r.reports.map fun j => j.outcome.measure fun ts => (ts.map TagReport.additions).sum).sum := by
  rw [additions, tally_eq]

theorem removals_eq : r.removals =
    (r.reports.map fun j => j.outcome.measure fun ts => (ts.map TagReport.removals).sum).sum := by
  rw [removals, tally_eq]

theorem changes_eq : r.additions + r.removals =
    (r.reports.map fun j =>
      j.outcome.measure fun ts => (ts.map fun t => t.verdict.changeCount).sum).sum := by
  rw [additions_eq, removals_eq, ← List.sum_map_add]
  congr 1
  apply List.map_congr_left
  intro j _
  rw [Outcome.measure_add]
  congr 1
  funext ts
  exact List.sum_map_add.symm

theorem sum_measure_pos_iff (f : List TagReport → Nat) (rs : List JobReport) :
    0 < (rs.map fun j => j.outcome.measure f).sum ↔
      ∃ j ∈ rs, ∃ ts, j.outcome = .compared ts ∧ 0 < f ts := by
  simp only [List.sum_pos_iff_exists_pos_nat, List.mem_map, exists_exists_and_eq_and,
    Outcome.measure_pos_iff]

theorem hasChanges_iff : r.hasChanges = true ↔ ∃ j ∈ r.reports, j.Changed := by
  have sums : r.hasChanges = true ↔ 0 < r.additions + r.removals := by
    rw [hasChanges, Bool.or_eq_true, decide_eq_true_eq, decide_eq_true_eq,
      Nat.add_pos_iff_pos_or_pos]
  rw [sums, changes_eq, sum_measure_pos_iff]
  simp only [List.sum_pos_iff_exists_pos_nat, List.mem_map, exists_exists_and_eq_and,
    JobReport.Changed]

theorem hasFailures_iff : r.hasFailures = true ↔ ∃ j ∈ r.reports, j.Faulty := by
  have faulty (j : JobReport) : j.Faulty ↔ j.outcome.isFailed = true ∨
      ∃ ts, j.outcome = .compared ts ∧ 0 < ts.countP fun t => t.verdict.isInvalid := by
    unfold JobReport.Faulty
    cases j.outcome with
    | failed f => simp [Outcome.isFailed]
    | compared ts => simp [Outcome.isFailed, List.countP_pos_iff, Verdict.isInvalid_iff]
  simp only [hasFailures, Bool.or_eq_true, decide_eq_true_eq, jobsFailed_eq, tagsInvalid_eq,
    List.countP_pos_iff, sum_measure_pos_iff, faulty, and_or_left, exists_or]

end Results

end XmlDelta.Compare
