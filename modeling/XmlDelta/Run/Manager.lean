import XmlDelta.Compare.Results
import XmlDelta.Document.Builder
import XmlDelta.Jobs.File
import XmlDelta.Run.Log

set_option autoImplicit false

namespace XmlDelta.Run

open XmlDelta.Compare
open XmlDelta.Disk (IoError Path Tree)
open XmlDelta.Document (Element)

structure Manager where
  baseDir : Path
  jobs : List Job := []
  maxConcurrent : Nat := 1

def requireFile (t : Tree) (p : Path) : Except Failure Unit :=
  match t.tryExists p with
  | .ok true => .ok ()
  | .ok false => .error (.missingFile p)
  | .error e => .error (.io e)

def readFailure (p : Path) (e : IoError) : Failure :=
  if e.kind = .notFound then .missingFile p else .io e

variable [Text.EastAsian]

def loadDocument (t : Tree) (p : Path) : Except Failure Element := do
  let bytes ← (t.read p).mapError (readFailure p)
  (Document.parseBytes bytes).mapError fun f => .unparsable p f.message

def loadPair (t : Tree) (old new : Path) : Except Failure (Element × Element) := do
  requireFile t old
  requireFile t new
  let a ← loadDocument t old
  let b ← loadDocument t new
  return (a, b)

def distinct (xs : List String) : List String :=
  xs.foldl (fun seen x => if seen.contains x then seen else seen ++ [x]) []

def compareTags (tags : List String) (old new : Element) : List TagReport :=
  (distinct tags).map fun tag => ⟨tag, compareDocuments old new tag⟩

def outcomeOf (tags : List String) : Except Failure (Element × Element) → Outcome
  | .error f => .failed f
  | .ok (a, b) => .compared (compareTags tags a b)

def runJobIn (t : Tree) (oldDir newDir : Path) (j : Job) : JobReport :=
  let old := Path.join oldDir j.oldFile
  let new := Path.join newDir j.newFile
  { label := j.label
    oldPath := old
    newPath := new
    outcome := outcomeOf j.tags (loadPair t old new)
    duration := 0 }

namespace Manager

def oldDir (m : Manager) : Path :=
  Path.join m.baseDir "old"

def newDir (m : Manager) : Path :=
  Path.join m.baseDir "new"

def add (m : Manager) (js : List Job) : Manager :=
  { m with jobs := m.jobs ++ js }

def ensure (t : Tree) : List Path → Tree × Option Failure
  | [] => (t, none)
  | dir :: rest =>
    let a := t.makeDirectories dir
    match a.error? with
    | none => ensure a.tree rest
    | some e => (a.tree, some (.directorySetup dir e))

def ensureDirectories (m : Manager) (t : Tree) : Tree × Option Failure :=
  ensure t [m.oldDir, m.newDir]

def load (m : Manager) (t : Tree) (p : Path) : Except Settings.Fault (Manager × Nat) :=
  (Jobs.load t p).map fun js => (m.add js, js.length)

def save (m : Manager) (t : Tree) (p : Path) : Except Settings.Fault Tree :=
  Jobs.save t p m.jobs

def runJob (m : Manager) (t : Tree) (j : Job) : JobReport :=
  runJobIn t m.oldDir m.newDir j

def runAll (m : Manager) (t : Tree) : Results :=
  Results.aggregate (m.jobs.map (m.runJob t)) 0

end Manager

def skippedRecords (js : List Job) : List Record :=
  (Job.skipped js).map fun (i, f) =>
    ⟨.warn, "Skipping comparison entry", [("entry", Nat.repr i), ("reason", f.message)]⟩

def loadRecords (p : Path) : Except Settings.Fault (List Job) → List Record
  | .ok js =>
    skippedRecords js ++ [⟨.info, "Loaded comparison configuration",
      [("path", p), ("jobs", Nat.repr (Job.retainValid js).length)]⟩]
  | .error f => [⟨.warn, "Error loading configuration", [("path", p), ("error", f.message)]⟩]

def savedRecord (p : Path) (js : List Job) : Record :=
  ⟨.info, "Saved comparison configuration", [("path", p), ("jobs", Nat.repr js.length)]⟩

def tagRecord (label : String) (t : TagReport) : Record :=
  match t.verdict with
  | .invalid r =>
    ⟨.warn, "Invalid comparison", [("job", label), ("tag", t.tag), ("reason", r.message)]⟩
  | .compared _ =>
    ⟨.debug, "Compared tag", [("job", label), ("tag", t.tag),
      ("additions", Nat.repr t.additions), ("removals", Nat.repr t.removals)]⟩

def jobRecords (r : JobReport) : List Record :=
  ⟨.info, "Running comparison", [("job", r.label)]⟩ ::
    match r.outcome with
    | .failed f => [⟨.warn, "Skipping comparison", [("job", r.label), ("error", f.message)]⟩]
    | .compared ts => ts.map (tagRecord r.label)

def finishedRecord (r : Results) : Record :=
  ⟨.info, "Comparison run finished",
    [("jobs", Nat.repr r.reports.length), ("failed", Nat.repr r.jobsFailed),
      ("tags", Nat.repr r.tagsCompared), ("invalid", Nat.repr r.tagsInvalid),
      ("additions", Nat.repr r.additions), ("removals", Nat.repr r.removals)]⟩

end XmlDelta.Run
