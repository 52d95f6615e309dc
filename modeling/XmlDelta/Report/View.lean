set_option autoImplicit false

namespace XmlDelta.Report

inductive Verbosity where
  | quiet
  | normal
  | verbose
  | debug
  deriving DecidableEq

def Verbosity.isDetailed : Verbosity → Bool
  | verbose => true
  | debug => true
  | _ => false

inductive Format where
  | human
  | json
  | summary
  deriving DecidableEq

namespace Format

def name : Format → String
  | human => "human"
  | json => "json"
  | summary => "summary"

def ofName? (s : String) : Option Format :=
  [human, json, summary].find? fun f => f.name == s

theorem ofName?_name (f : Format) : ofName? f.name = some f := by
  cases f <;> decide

end Format

structure View where
  verbosity : Verbosity
  format : Format
  colors : Bool

end XmlDelta.Report
