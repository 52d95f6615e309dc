import XmlDelta.Run.Footprint
import Std.Time.Format

set_option autoImplicit false

namespace XmlDelta.Program

open XmlDelta.Compare (Job JobReport)
open XmlDelta.Disk (Path Tree)
open XmlDelta.Run

def variableNames : List String :=
  ["BASE_DIR", "CONFIG", "FORMAT", "JOBS", "VERBOSE", "QUIET"].map Settings.variableName ++
    ["RUST_LOG", "HOME", "XDG_CONFIG_HOME"]

def readEnvironment : IO Settings.Environment :=
  variableNames.filterMapM fun name => do
    return (← IO.getEnv name).map fun value => (name, value)

def isADirectory : IO.Error → Bool
  | .inappropriateType _ code _ => code == 21
  | _ => false

def captureOne (t : Tree) (p : Path) : IO Tree := do
  match ← (IO.FS.readBinFile p).toBaseIO with
  | .ok bytes => return (t.write p bytes.toList).toOption.getD t
  | .error e => return if isADirectory e then (t.makeDirectories p).tree else t

def capture (t : Tree) (paths : List Path) : IO Tree :=
  (paths.flatMap Path.prefixes).foldlM captureOne t

def carryOut : Edit → IO Unit
  | .directory p => IO.FS.createDirAll p
  | .file p content => IO.FS.writeBinFile p (ByteArray.mk content.toArray)

def stamp : IO String := do
  let now ← Std.Time.PlainDateTime.now
  return now.format "uuuu-MM-dd'T'HH:mm:ss.SSSSSS"

def sayOne : Notice → IO Unit
  | .message t => IO.eprintln t
  | .record r => do IO.eprintln ((← stamp) ++ " " ++ r.line)

def microsNow : IO Nat := do
  return (← IO.monoNanosNow) / 1000

def timedJob (p : Plan) (j : Job) : IO JobReport := do
  let started ← microsNow
  let r ← IO.lazyPure fun _ => p.manager.runJob p.disk j
  return r.lasting ((← microsNow) - started)

def runBatch (p : Plan) (js : List Job) : IO (List JobReport) := do
  let tasks ← js.mapM fun j => IO.asTask (timedJob p j)
  tasks.mapM fun t => IO.ofExcept t.get

def runJobs (p : Plan) : IO (List JobReport) := do
  return (← (batches p.manager.maxConcurrent p.manager.jobs).mapM (runBatch p)).flatten

def close (r : Transcript) : IO UInt32 := do
  r.notices.forM sayOne
  IO.print r.output
  return r.code.toUInt32

def finishPlan (q : Request) (p : Plan) : IO UInt32 := do
  p.notices.forM sayOne
  p.edits.forM carryOut
  let disk ← capture p.disk p.manager.jobPaths
  let p := { p with disk, notices := [] }
  let started ← microsNow
  let reports ← runJobs p
  close (finish q p reports ((← microsNow) - started))

def request (args : List String) : IO Request := do
  let environment ← readEnvironment
  let here := (← IO.currentDir).toString
  let place := Path.components here |>.filterMap fun c =>
    match c with
    | .name n => some n
    | _ => none
  let tree : Tree := { (({} : Tree).makeDirectories here).tree with here := place }
  let system ← capture tree Settings.accountPaths
  let disk ← capture system (startPaths args environment system)
  let clock := (← Std.Time.PlainTime.now).format "HH:mm:ss"
  let colors ← (← IO.getStdout).isTty
  return ⟨args, environment, disk, clock, colors⟩

end XmlDelta.Program

open XmlDelta in
def main (args : List String) : IO UInt32 := do
  let q ← Program.request args
  match Run.start q with
  | .error r => Program.close r
  | .ok p => Program.finishPlan q p
