import XmlDelta.CommandLine.Options
import XmlDelta.Jobs.File
import XmlDelta.Settings.Basic
import XmlDelta.Text.Count

set_option autoImplicit false

namespace XmlDelta.Settings

open XmlDelta.CommandLine (Options)

abbrev Environment := Keyed String

def variableName (name : String) : String :=
  "XML_COMPARE_" ++ name

def badVariable (name value : String) : Fault :=
  .environment ("Invalid " ++ variableName name ++ " value: " ++ value)

def override {α : Type} (env : Environment) (name : String) (default : α)
    (read : String → Option α) : Except Fault α :=
  match Keyed.get? (variableName name) env with
  | none => .ok default
  | some v =>
    match read v with
    | some a => .ok a
    | none => .error (badVariable name v)

def readFormat (v : String) : Option Report.Format :=
  Report.Format.ofName? (String.ofList (v.toList.map Char.toLower))

def readBool (v : String) : Option Bool :=
  if v = "true" then some true else if v = "false" then some false else none

def ofEnvironment (env : Environment) : Except Fault Settings := do
  let d : Settings := {}
  let baseDir ← override env "BASE_DIR" d.baseDir some
  let configFile ← override env "CONFIG" d.configFile (some ∘ some)
  let format ← override env "FORMAT" d.format readFormat
  let concurrency ← override env "JOBS" d.concurrency Text.count?
  let verbose ← override env "VERBOSE" d.verbose readBool
  let quiet ← override env "QUIET" d.quiet readBool
  return { d with baseDir, configFile, format, concurrency, verbose, quiet }

def withOptions (s : Settings) (o : Options) : Settings :=
  -- Asking for more words on the command line takes back a request for fewer, and the reverse.
  { baseDir := o.baseDir.getD s.baseDir
    configFile := o.config.orElse fun _ => s.configFile
    format := o.format.getD s.format
    concurrency := o.jobs.getD s.concurrency
    verbose := !o.quiet && (o.verbose || s.verbose)
    quiet := !o.debug && (o.quiet || (!o.verbose && s.quiet))
    debug := o.debug || s.debug
    failOnChanges := o.failOnChanges || s.failOnChanges }

def greatestConcurrency : Nat := 256

def check (s : Settings) : Except Fault Unit :=
  if s.concurrency = 0 then .error (.invalid "Number of concurrent jobs must be greater than 0")
  else if greatestConcurrency < s.concurrency then
    .error (.invalid ("Number of concurrent jobs cannot exceed " ++ Nat.repr greatestConcurrency))
  else if s.verbose && s.quiet then
    .error (.invalid "Cannot enable both verbose and quiet modes")
  else
    match s.configFile with
    | none => .ok ()
    | some p => (Jobs.formatOf p).map fun _ => ()

def resolve (env : Environment) (o : Options) : Except Fault Settings := do
  let s := (← ofEnvironment env).withOptions o
  s.check
  return s

end XmlDelta.Settings
