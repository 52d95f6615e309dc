import XmlDelta.Document.Render
import XmlDelta.Json.Value
import XmlDelta.Report.Duration

set_option autoImplicit false

namespace XmlDelta.Report

open XmlDelta.Compare
open XmlDelta.Document (Element)
open XmlDelta.Json (Value)

def strings (ss : List String) : Value :=
  .list (ss.map .string)

def sideName : Side → String
  | .old => "old"
  | .new => "new"
  | .both => "both"

def reasonValue : InvalidReason → Value
  | .tagNotFound s =>
    .object [("kind", .string "tag_not_found"), ("missing_from", .string (sideName s))]
  | .hierarchyMismatch o n =>
    .object [("kind", .string "hierarchy_mismatch"), ("old_path", strings o),
      ("new_path", strings n)]

def elementTexts (es : List Element) : Value :=
  strings (es.map (Element.render 0))

def verdictFields : Verdict → List (String × Value)
  | .invalid r => [("invalid", .bool true), ("reason", reasonValue r)]
  | .compared c =>
    [("invalid", .bool false), ("additions", elementTexts c.additions),
      ("removals", elementTexts c.removals)]

def tagValue (t : TagReport) : Value :=
  .object (("tag", .string t.tag) :: verdictFields t.verdict)

def failureFields (r : JobReport) : List (String × Value) :=
  match r.failure? with
  | some f => [("error", .string f.message)]
  | none => []

def jobValue (r : JobReport) : Value :=
  .object (("comparison", .string r.label) :: failureFields r ++
    [("tags", .list (r.tags.map tagValue))])

def summaryValue (r : Results) : Value :=
  .object [("comparisons", .number r.reports.length), ("failed", .number r.jobsFailed),
    ("tags_compared", .number r.tagsCompared), ("tags_invalid", .number r.tagsInvalid),
    ("additions", .number r.additions), ("removals", .number r.removals),
    ("duration_ms", .number (milliseconds r.duration))]

def resultsValue (r : Results) : Value :=
  .object [("comparisons", .list (r.reports.map jobValue)), ("summary", summaryValue r)]

end XmlDelta.Report
