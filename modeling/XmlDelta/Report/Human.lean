import XmlDelta.Document.Render
import XmlDelta.Report.Duration
import XmlDelta.Report.Fragment
import XmlDelta.Report.View

set_option autoImplicit false

namespace XmlDelta.Report

open XmlDelta.Compare
open XmlDelta.Document (Element)
open Fragment (plain colored)

def elementFragments (es : List Element) : List Fragment :=
  if es.isEmpty then [plain "\tNone\n"]
  else es.map fun e => plain (e.render 0 ++ "\n")

def verdictFragments (v : Verbosity) : Verdict → List Fragment
  | .invalid r =>
    [colored .red "Invalid Input",
      plain ((if v.isDetailed then " (" ++ r.message ++ ")" else "") ++ "\n")]
  | .compared c =>
    [colored .green "Additions:", plain "\n"] ++ elementFragments c.additions ++
      [plain "\n", colored .red "Removals:", plain "\n"] ++ elementFragments c.removals

def tagFragments (v : Verbosity) (t : TagReport) : List Fragment :=
  plain ("\nTag: <" ++ t.tag ++ ">\n") :: verdictFragments v t.verdict

def outcomeFragments (v : Verbosity) : Outcome → List Fragment
  | .failed f => [colored .yellow "Error:", plain (" " ++ f.message ++ "\n")]
  | .compared ts => ts.flatMap (tagFragments v)

def jobDetails (r : JobReport) : Fragment :=
  plain ("\n  old: " ++ r.oldPath ++ "\n  new: " ++ r.newPath ++ "\n  duration: " ++
    durationText r.duration ++ "\n")

def jobFragments (v : Verbosity) (r : JobReport) : List Fragment :=
  plain ("\n=== Comparison: " ++ r.label ++ " ===\n") :: outcomeFragments v r.outcome ++
    if v = .debug then [jobDetails r] else []

def countLine (name : Fragment) (n : Nat) : List Fragment :=
  [plain "  ", name, plain (" " ++ Nat.repr n ++ "\n")]

def alarmLine (name : Fragment) (n : Nat) : List Fragment :=
  if 0 < n then countLine name n else []

def summaryFragments (r : Results) : List Fragment :=
  plain "Comparison Summary:\n" ::
    countLine (plain "Comparisons:") r.reports.length ++
    alarmLine (colored .yellow "Failed:") r.jobsFailed ++
    countLine (plain "Tags compared:") r.tagsCompared ++
    alarmLine (colored .red "Invalid:") r.tagsInvalid ++
    countLine (colored .green "Additions:") r.additions ++
    countLine (colored .red "Removals:") r.removals ++
    [plain ("  Duration: " ++ durationText r.duration ++ "\n")]

def humanFragments (v : Verbosity) (r : Results) : List Fragment :=
  -- In quiet runs a summary, and that only if there is something to tell.
  if v = .quiet then
    if r.hasChanges || r.hasFailures then summaryFragments r else []
  else
    r.reports.flatMap (jobFragments v) ++
      if v.isDetailed then plain "\n" :: summaryFragments r else []

end XmlDelta.Report
