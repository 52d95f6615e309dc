import Mathlib.Data.List.Forall2
import XmlDelta.Proofs.Compare.Results
import XmlDelta.Proofs.Json.Reader
import XmlDelta.Report.Text

set_option autoImplicit false

namespace XmlDelta.Json.Value

def under (key : String) : Value → List Value
  | object fs => (fs.filter fun f => f.1 == key).map Prod.snd
  | _ => []

def members : Value → List Value
  | list vs => vs
  | _ => []

def isTrue : Value → Bool
  | bool b => b
  | _ => false

end XmlDelta.Json.Value

namespace XmlDelta.Report

open XmlDelta.Compare
open XmlDelta.Json (Value)

section Entries

def ShowsReason (v : Value) : InvalidReason → Prop
  | .tagNotFound side =>
    v.under "kind" = [.string "tag_not_found"] ∧ v.under "missing_from" = [.string (sideName side)]
  | .hierarchyMismatch o n =>
    v.under "kind" = [.string "hierarchy_mismatch"] ∧
      v.under "old_path" = [.list (o.map .string)] ∧ v.under "new_path" = [.list (n.map .string)]

def ShowsVerdict (v : Value) : Verdict → Prop
  | .invalid reason =>
    v.under "invalid" = [.bool true] ∧ (∃ w, v.under "reason" = [w] ∧ ShowsReason w reason) ∧
      v.under "additions" = [] ∧ v.under "removals" = []
  | .compared c =>
    v.under "invalid" = [.bool false] ∧ v.under "reason" = [] ∧
      v.under "additions" = [.list (c.additions.map fun e => .string (e.render 0))] ∧
      v.under "removals" = [.list (c.removals.map fun e => .string (e.render 0))]

structure ShowsTag (t : TagReport) (v : Value) : Prop where
  tag : v.under "tag" = [.string t.tag]
  verdict : ShowsVerdict v t.verdict

def ShowsOutcome (v : Value) : Outcome → Prop
  | .failed f => v.under "error" = [.string f.message] ∧ v.under "tags" = [.list []]
  | .compared reports =>
    v.under "error" = [] ∧
      ∃ ts, v.under "tags" = [.list ts] ∧ List.Forall₂ ShowsTag reports ts

structure ShowsJob (r : JobReport) (v : Value) : Prop where
  label : v.under "comparison" = [.string r.label]
  outcome : ShowsOutcome v r.outcome

theorem showsReason_reasonValue (reason : InvalidReason) :
    ShowsReason (reasonValue reason) reason := by
  cases reason with
  | tagNotFound side => simp [ShowsReason, reasonValue, Value.under]
  | hierarchyMismatch o n => simp [ShowsReason, reasonValue, Value.under, strings]

theorem showsTag_tagValue (t : TagReport) : ShowsTag t (tagValue t) := by
  obtain ⟨tag, verdict⟩ := t
  cases verdict with
  | invalid reason =>
    constructor
    · simp [tagValue, verdictFields, Value.under]
    · refine ⟨?_, ⟨reasonValue reason, ?_, showsReason_reasonValue reason⟩, ?_, ?_⟩ <;>
        simp [tagValue, verdictFields, Value.under]
  | compared c =>
    constructor
    · simp [tagValue, verdictFields, Value.under]
    · simp [ShowsVerdict, tagValue, verdictFields, Value.under, elementTexts, strings,
        Function.comp_def]

theorem showsJob_jobValue (r : JobReport) : ShowsJob r (jobValue r) := by
  obtain ⟨label, oldPath, newPath, outcome, duration⟩ := r
  cases outcome with
  | failed f =>
    constructor
    · rfl
    · exact ⟨rfl, rfl⟩
  | compared reports =>
    constructor
    · rfl
    · refine ⟨rfl, reports.map tagValue, rfl, ?_⟩
      rw [List.forall₂_map_right_iff, List.forall₂_same]
      exact fun t _ => showsTag_tagValue t

theorem showsJobs (rs : List JobReport) : List.Forall₂ ShowsJob rs (rs.map jobValue) :=
  List.forall₂_map_right_iff.mpr (List.forall₂_same.mpr fun r _ => showsJob_jobValue r)

end Entries

section Counts

def tagEntries (jobs : List Value) : List Value :=
  jobs.flatMap fun j => (j.under "tags").flatMap Value.members

def listed (key : String) (tag : Value) : Nat :=
  ((tag.under key).flatMap Value.members).length

structure Summarizes (jobs : List Value) (summary : Value) : Prop where
  comparisons : summary.under "comparisons" = [.number jobs.length]
  failed : summary.under "failed" = [.number (jobs.countP fun j => !(j.under "error").isEmpty)]
  tagsCompared : summary.under "tags_compared" = [.number (tagEntries jobs).length]
  tagsInvalid : summary.under "tags_invalid" =
    [.number ((tagEntries jobs).countP fun t => (t.under "invalid").any Value.isTrue)]
  additions : summary.under "additions" =
    [.number ((tagEntries jobs).map (listed "additions")).sum]
  removals : summary.under "removals" = [.number ((tagEntries jobs).map (listed "removals")).sum]

theorem map_eq_of_forall₂ {α β γ : Type} {R : α → β → Prop} {f : α → γ} {g : β → γ}
    (agree : ∀ ⦃a b⦄, R a b → f a = g b) {xs : List α} {ys : List β}
    (pairs : List.Forall₂ R xs ys) : xs.map f = ys.map g := by
  induction pairs with
  | nil => rfl
  | cons first _ ih => rw [List.map_cons, List.map_cons, agree first, ih]

theorem countP_eq_of_forall₂ {α β : Type} {R : α → β → Prop} {p : α → Bool} {q : β → Bool}
    (agree : ∀ ⦃a b⦄, R a b → p a = q b) {xs : List α} {ys : List β}
    (pairs : List.Forall₂ R xs ys) : xs.countP p = ys.countP q := by
  have marks := map_eq_of_forall₂ agree pairs
  calc
    xs.countP p = (xs.map p).countP id := by rw [List.countP_map]; rfl
    _ = (ys.map q).countP id := by rw [marks]
    _ = ys.countP q := by rw [List.countP_map]; rfl

theorem ShowsTag.isInvalid_eq {t : TagReport} {v : Value} (shows : ShowsTag t v) :
    t.verdict.isInvalid = (v.under "invalid").any Value.isTrue := by
  obtain ⟨tag, verdict⟩ := t
  cases verdict with
  | invalid reason =>
    rw [shows.verdict.1]
    rfl
  | compared c =>
    rw [shows.verdict.1]
    rfl

theorem ShowsTag.additions_eq {t : TagReport} {v : Value} (shows : ShowsTag t v) :
    t.additions = listed "additions" v := by
  obtain ⟨tag, verdict⟩ := t
  cases verdict with
  | invalid reason =>
    obtain ⟨-, -, none, -⟩ := shows.verdict
    rw [listed, none]
    rfl
  | compared c =>
    obtain ⟨-, -, found, -⟩ := shows.verdict
    rw [listed, found]
    simp [TagReport.additions, Verdict.additionCount, Value.members]

theorem ShowsTag.removals_eq {t : TagReport} {v : Value} (shows : ShowsTag t v) :
    t.removals = listed "removals" v := by
  obtain ⟨tag, verdict⟩ := t
  cases verdict with
  | invalid reason =>
    obtain ⟨-, -, -, none⟩ := shows.verdict
    rw [listed, none]
    rfl
  | compared c =>
    obtain ⟨-, -, -, found⟩ := shows.verdict
    rw [listed, found]
    simp [TagReport.removals, Verdict.removalCount, Value.members]

theorem ShowsJob.failed_eq {r : JobReport} {v : Value} (shows : ShowsJob r v) :
    r.outcome.isFailed = !(v.under "error").isEmpty := by
  have outcome := shows.outcome
  cases found : r.outcome with
  | failed f =>
    rw [found] at outcome
    rw [outcome.1]
    rfl
  | compared reports =>
    rw [found] at outcome
    rw [outcome.1]
    rfl

theorem ShowsJob.measure_eq {r : JobReport} {v : Value} (shows : ShowsJob r v)
    {f : List TagReport → Nat} {g : List Value → Nat} (nothing : g [] = 0)
    (agree : ∀ {reports ts}, List.Forall₂ ShowsTag reports ts → f reports = g ts) :
    r.outcome.measure f = g (tagEntries [v]) := by
  have outcome := shows.outcome
  cases found : r.outcome with
  | failed _ =>
    rw [found] at outcome
    obtain ⟨-, tags⟩ := outcome
    simp [Outcome.measure, tagEntries, tags, Value.members, nothing]
  | compared reports =>
    rw [found] at outcome
    obtain ⟨-, ts, tags, entries⟩ := outcome
    simp [Outcome.measure, tagEntries, tags, Value.members, agree entries]

theorem sum_measure_eq {rs : List JobReport} {jobs : List Value}
    (shows : List.Forall₂ ShowsJob rs jobs) {f : List TagReport → Nat} {g : List Value → Nat}
    (nothing : g [] = 0) (join : ∀ xs ys, g (xs ++ ys) = g xs + g ys)
    (agree : ∀ {reports ts}, List.Forall₂ ShowsTag reports ts → f reports = g ts) :
    (rs.map fun r => r.outcome.measure f).sum = g (tagEntries jobs) := by
  induction shows with
  | nil => exact nothing.symm
  | @cons r v rs jobs first _ ih =>
    have split : tagEntries (v :: jobs) = tagEntries [v] ++ tagEntries jobs := by simp [tagEntries]
    rw [List.map_cons, List.sum_cons, ih, first.measure_eq nothing agree, split, join]

-- The counts of the results come from the reports, those of the summary from the entries.
theorem summarizes (r : Results) {jobs : List Value}
    (shows : List.Forall₂ ShowsJob r.reports jobs) : Summarizes jobs (summaryValue r) := by
  have failed : r.jobsFailed = jobs.countP fun j => !(j.under "error").isEmpty := by
    rw [Results.jobsFailed_eq]
    exact countP_eq_of_forall₂ (fun _ _ job => job.failed_eq) shows
  have compared : r.tagsCompared = (tagEntries jobs).length := by
    rw [Results.tagsCompared_eq]
    exact sum_measure_eq shows rfl (fun _ _ => List.length_append) List.Forall₂.length_eq
  have invalid : r.tagsInvalid =
      (tagEntries jobs).countP fun t => (t.under "invalid").any Value.isTrue := by
    rw [Results.tagsInvalid_eq]
    apply sum_measure_eq shows rfl (fun _ _ => List.countP_append)
    exact countP_eq_of_forall₂ fun _ _ tag => tag.isInvalid_eq
  have additions : r.additions = ((tagEntries jobs).map (listed "additions")).sum := by
    rw [Results.additions_eq]
    apply sum_measure_eq shows (g := fun ts => (ts.map (listed "additions")).sum) rfl
    · intro xs ys
      rw [List.map_append, List.sum_append]
    · intro reports ts entries
      rw [map_eq_of_forall₂ (fun _ _ tag => tag.additions_eq) entries]
  have removals : r.removals = ((tagEntries jobs).map (listed "removals")).sum := by
    rw [Results.removals_eq]
    apply sum_measure_eq shows (g := fun ts => (ts.map (listed "removals")).sum) rfl
    · intro xs ys
      rw [List.map_append, List.sum_append]
    · intro reports ts entries
      rw [map_eq_of_forall₂ (fun _ _ tag => tag.removals_eq) entries]
  constructor
  · simp [summaryValue, Value.under, shows.length_eq]
  · simp [summaryValue, Value.under, failed]
  · simp [summaryValue, Value.under, compared]
  · simp [summaryValue, Value.under, invalid]
  · simp [summaryValue, Value.under, additions]
  · simp [summaryValue, Value.under, removals]

end Counts

end XmlDelta.Report
