import XmlDelta.Compare.Results
import XmlDelta.Report.View
import XmlDelta.Settings.Fault

set_option autoImplicit false

namespace XmlDelta.Report

open XmlDelta.Compare (Failure Results)

def advice? : Failure → Option String
  | .missingFile p =>
    some ("Place the file at " ++ p ++ " or fix the file name in the configuration")
  | .unparsable f _ => some ("Check that " ++ f ++ " is well-formed XML")
  | .directorySetup _ _ => some "Check permissions on the base directory"
  | _ => none

def adviceText (f : Failure) : String :=
  match advice? f with
  | some a => "\nSuggestion: " ++ a
  | none => ""

def chainText (f : Failure) : String :=
  "\nError Chain:" ++
    match f.cause? with
    | some e => "\n  1: " ++ e.message
    | none => ""

def failureText (v : Verbosity) (clock : Option String) (f : Failure) : String :=
  let time := (clock.map fun t => "[" ++ t ++ "] ").getD ""
  let normal := time ++ "Error: " ++ f.message
  match v with
  | .quiet => (if f.isFatal then "FATAL: " else "ERROR: ") ++ f.message
  | .normal => normal
  | .verbose => normal ++ adviceText f
  | .debug => normal ++ adviceText f ++ "\nDebug Info: " ++ f.debug ++ chainText f

def failureTexts (v : Verbosity) (clock : Option String) (r : Results) : List String :=
  r.failures.map (failureText v clock)

def settingsFaultText (v : Verbosity) (f : Settings.Fault) : String :=
  let full := "Error loading configuration: " ++ f.message ++ "\n"
  match v with
  | .quiet => "Config error: " ++ f.message
  | .debug => full ++ "Debug: " ++ f.debug ++ "\n" ++ f.advice
  | _ => full ++ f.advice

end XmlDelta.Report
