import XmlDelta.CommandLine.Arguments
import XmlDelta.Report.Failure
import XmlDelta.Report.Text
import XmlDelta.Run.Manager
import XmlDelta.Settings.Search

set_option autoImplicit false

namespace XmlDelta.Run

open XmlDelta.CommandLine (Options Refusal)
open XmlDelta.Compare
open XmlDelta.Disk (Path Tree)
open XmlDelta.Report
open XmlDelta.Settings (Environment)

structure Request where
  arguments : List String
  environment : Environment
  disk : Tree
  clock : String
  colors : Bool

inductive Notice where
  | message (text : String)
  | record (r : Record)

inductive Edit where
  | directory (p : Path)
  | file (p : Path) (content : List UInt8)

structure Transcript where
  code : Nat
  output : String
  notices : List Notice
  disk : Tree

def versionText : String := "xml-compare 0.1.0\n"

def helpText : String :=
  String.join
    ["Report child elements added or removed between old and new versions of XML files\n\n",
      "Usage: xml-compare [OPTIONS]\n\n",
      "Options:\n",
      "  -b, --base-dir <BASE_DIR>        Directory containing the old/ and new/ folders\n",
      "  -c, --config <CONFIG>            Comparison configuration file (JSON or TOML)\n",
      "      --old <OLD_FILE>             Old file for a single ad-hoc comparison\n",
      "      --new <NEW_FILE>             New file for a single ad-hoc comparison\n",
      "      --tag <TAGS>                 Tags to compare in the ad-hoc comparison\n",
      "      --save-config <SAVE_CONFIG>  Write the effective comparison list to this file\n",
      "  -f, --format <FORMAT>            Output format: human, json or summary\n",
      "  -j, --jobs <JOBS>                Number of comparisons to run concurrently\n",
      "  -v, --verbose                    Enable verbose output\n",
      "  -q, --quiet                      Quiet mode\n",
      "      --debug                      Show debugging details\n",
      "      --fail-on-changes            Exit with a non-zero status when changes are found\n",
      "  -h, --help                       Print help\n",
      "  -V, --version                    Print version\n"]

def refusalMessage : Refusal → String
  | .unknownArgument => "error: unexpected argument found"
  | .invalidValue => "error: an option has a missing or invalid value"
  | .valueValidation => "error: an option has a value that is not a number"
  | .tooManyValues => "error: a flag was given a value"
  | .conflict => "error: arguments cannot be used together or more than once"
  | .missingRequired => "error: required arguments were not provided"
  | .helpAsked => helpText
  | .versionAsked => versionText

def refuse (t : Tree) (r : Refusal) : Transcript :=
  match r with
  | .helpAsked => ⟨0, refusalMessage r, [], t⟩
  | .versionAsked => ⟨0, refusalMessage r, [], t⟩
  | _ => ⟨2, "", [.message (refusalMessage r)], t⟩

def fatalCode : Nat := 3

def abort (t : Tree) (text : String) : Transcript :=
  ⟨fatalCode, "", [.message text], t⟩

def exitCode (s : Settings) (r : Results) : Nat :=
  if !s.failOnChanges then 0
  else if r.hasFailures then 2
  else if r.hasChanges then 1
  else 0

structure Plan where
  settings : Settings
  filter : Filter
  manager : Manager
  disk : Tree
  edits : List Edit
  notices : List Notice := []

namespace Plan

def say (p : Plan) (ns : List Notice) : Plan :=
  { p with notices := p.notices ++ ns }

def log (p : Plan) (rs : List Record) : Plan :=
  p.say ((rs.filter p.filter.keeps).map .record)

def status (p : Plan) (text : String) : Plan :=
  if p.settings.verbosity = .quiet then p else p.say [.message text]

def complain (p : Plan) (f : Settings.Fault) : Plan :=
  p.say [.message (settingsFaultText p.settings.verbosity f)]

def loadFrom (p : Plan) (path : Path) : Plan :=
  let p := p.status ("Loading configuration from " ++ path ++ "...")
  let p := p.log (loadRecords path (Jobs.entries p.disk path))
  match p.manager.load p.disk path with
  | .ok (m, _) => { p with manager := m }
  | .error f => p.complain f

def gather (env : Environment) (o : Options) (p : Plan) : Plan :=
  match o.job? with
  | some j => { p with manager := p.manager.add [j] }
  | none =>
    match Settings.findConfig env p.disk p.settings with
    | some path => p.loadFrom path
    | none =>
      let p := p.status "No configuration file found. Using default comparisons..."
      { p with manager := p.manager.add Job.defaults }

def saveTo (path : Path) (p : Plan) : Plan :=
  match p.manager.save p.disk path with
  | .ok t =>
    -- What was written is what can now be read.
    let edit := Edit.file path ((t.read path).toOption.getD [])
    { p with disk := t, edits := p.edits ++ [edit] }.log [savedRecord path p.manager.jobs]
  | .error f => p.complain f

def announce (p : Plan) : Plan :=
  (p.status "\nRunning XML comparisons...").log
    [⟨.info, "Starting run",
      [("jobs", Nat.repr p.manager.jobs.length), ("base_dir", p.manager.baseDir)]⟩]

end Plan

def setupMessage (f : Failure) : String :=
  "Error: unable to prepare the old/ and new/ directories: " ++ f.message ++
    ((f.cause?.map fun e => ": " ++ e.message).getD "")

def planOf (q : Request) (o : Options) (s : Settings) : Except Transcript Plan :=
  let m : Manager := ⟨s.baseDir, [], s.concurrency⟩
  match m.ensureDirectories q.disk with
  | (t, some f) => .error (abort t (setupMessage f))
  | (t, none) =>
    let filter := filterFor (Keyed.get? "RUST_LOG" q.environment) s.verbosity
    let made := [Edit.directory m.oldDir, Edit.directory m.newDir]
    let p := Plan.gather q.environment o ⟨s, filter, m, t, made, []⟩
    .ok ((o.saveConfig.elim p (Plan.saveTo · p)).announce)

def start (q : Request) : Except Transcript Plan :=
  match CommandLine.parse q.arguments with
  | .error r => .error (refuse q.disk r)
  | .ok o =>
    match o.fault? q.disk with
    | some f => .error (abort q.disk ("Error: " ++ f.message))
    | none =>
      match Settings.resolve q.environment o with
      | .error f => .error (abort q.disk (settingsFaultText .normal f))
      | .ok s => planOf q o s

def failureNotices (q : Request) (s : Settings) (r : Results) : List Notice :=
  if s.format != .human || s.verbosity = .quiet then
    let clock := if s.verbosity = .debug then some q.clock else none
    (failureTexts s.verbosity clock r).map .message
  else []

def reportText (q : Request) (s : Settings) (r : Results) : String :=
  resultsText ⟨s.verbosity, s.format, q.colors⟩ r

def finish (q : Request) (p : Plan) (reports : List JobReport) (duration : Micros) : Transcript :=
  let r := Results.aggregate reports duration
  -- The log tells of every report, also of those that another of the same label replaces.
  let p := p.log (reports.flatMap jobRecords ++ [finishedRecord r])
  let text := reportText q p.settings r
  { code := exitCode p.settings r
    output := if text = "" then "" else text ++ "\n"
    notices := p.notices ++ failureNotices q p.settings r
    disk := p.disk }

variable [Text.EastAsian]

def run (q : Request) : Transcript :=
  match start q with
  | .error t => t
  | .ok p => finish q p (p.manager.jobs.map (p.manager.runJob p.disk)) 0

end XmlDelta.Run
