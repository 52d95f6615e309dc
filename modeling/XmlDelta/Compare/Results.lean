import XmlDelta.Compare.Failure
import XmlDelta.Compare.Verdict

set_option autoImplicit false

namespace XmlDelta.Compare

open XmlDelta.Disk (Path)

structure TagReport where
  tag : String
  verdict : Verdict

inductive Outcome where
  | compared (tags : List TagReport)
  | failed (failure : Failure)

namespace Outcome

def tags : Outcome → List TagReport
  | compared ts => ts
  | failed _ => []

def failure? : Outcome → Option Failure
  | compared _ => none
  | failed f => some f

end Outcome

-- Lengths of time are in microseconds.
abbrev Micros := Nat

structure JobReport where
  label : String
  oldPath : Path
  newPath : Path
  outcome : Outcome
  duration : Micros

namespace JobReport

def tags (r : JobReport) : List TagReport :=
  r.outcome.tags

def failure? (r : JobReport) : Option Failure :=
  r.outcome.failure?

def verdict? (r : JobReport) (tag : String) : Option Verdict :=
  (r.tags.find? fun t => t.tag == tag).map TagReport.verdict

def lasting (d : Micros) (r : JobReport) : JobReport :=
  { r with duration := d }

end JobReport

namespace TagReport

def additions (t : TagReport) : Nat :=
  t.verdict.additionCount

def removals (t : TagReport) : Nat :=
  t.verdict.removalCount

end TagReport

structure Tally where
  jobsCompared : Nat := 0
  jobsFailed : Nat := 0
  tagsCompared : Nat := 0
  tagsInvalid : Nat := 0
  additions : Nat := 0
  removals : Nat := 0

namespace Tally

def addTag (n : Tally) (t : TagReport) : Tally :=
  match t.verdict with
  | .invalid _ => { n with tagsCompared := n.tagsCompared + 1, tagsInvalid := n.tagsInvalid + 1 }
  | .compared c =>
    { n with
      tagsCompared := n.tagsCompared + 1
      additions := n.additions + c.additions.length
      removals := n.removals + c.removals.length }

def addJob (n : Tally) (r : JobReport) : Tally :=
  match r.outcome with
  | .failed _ => { n with jobsFailed := n.jobsFailed + 1 }
  | .compared ts => ts.foldl addTag { n with jobsCompared := n.jobsCompared + 1 }

end Tally

structure Results where
  reports : List JobReport
  duration : Micros

namespace Results

def aggregate (reports : List JobReport) (duration : Micros) : Results :=
  ⟨(Keyed.index JobReport.label reports).values, duration⟩

def labels (r : Results) : List String :=
  r.reports.map JobReport.label

def failures (r : Results) : List Failure :=
  r.reports.filterMap JobReport.failure?

def tally (r : Results) : Tally :=
  r.reports.foldl Tally.addJob {}

def jobsFailed (r : Results) : Nat :=
  r.tally.jobsFailed

def jobsCompared (r : Results) : Nat :=
  r.tally.jobsCompared

def tagsCompared (r : Results) : Nat :=
  r.tally.tagsCompared

def tagsInvalid (r : Results) : Nat :=
  r.tally.tagsInvalid

def additions (r : Results) : Nat :=
  r.tally.additions

def removals (r : Results) : Nat :=
  r.tally.removals

def get? (r : Results) (label : String) : Option JobReport :=
  r.reports.find? fun j => j.label == label

def hasChanges (r : Results) : Bool :=
  0 < r.additions || 0 < r.removals

def hasFailures (r : Results) : Bool :=
  0 < r.jobsFailed || 0 < r.tagsInvalid

def withDuration (d : Micros) (r : Results) : Results :=
  ⟨r.reports.map (JobReport.lasting d), d⟩

end Results

end XmlDelta.Compare
