import XmlDelta.Report.Human
import XmlDelta.Report.Json

set_option autoImplicit false

namespace XmlDelta.Report

open XmlDelta.Compare (Results)

def resultsText (v : View) (r : Results) : String :=
  match v.format with
  | .human => paint v.colors (humanFragments v.verbosity r)
  | .json => (resultsValue r).text 2
  | .summary => paint v.colors (summaryFragments r)

end XmlDelta.Report
