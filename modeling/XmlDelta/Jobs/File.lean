import XmlDelta.Disk.Tree
import XmlDelta.Jobs.Json
import XmlDelta.Jobs.Toml
import XmlDelta.Settings.Fault

set_option autoImplicit false

namespace XmlDelta.Jobs

open XmlDelta.Compare (Job)
open XmlDelta.Disk (Path Tree)
open XmlDelta.Settings (Fault)

inductive Format where
  | json
  | toml
  deriving DecidableEq

def formatOf (p : Path) : Except Fault (Option Format) :=
  match Path.extension p with
  | none => .ok none
  | some e =>
    if e = "json" then .ok (some .json)
    else if e = "toml" then .ok (some .toml)
    else .error (.unsupportedFormat e)

def readAs (text : String) : Format → Except Fault (List Job)
  | .json => (ofJson text).mapError .json
  | .toml => (ofToml text).mapError .toml

def ofText (format : Option Format) (text : String) : Except Fault (List Job) :=
  match format with
  | some f => readAs text f
  | none =>
    match readAs text .json with
    | .ok jobs => .ok jobs
    | .error _ => readAs text .toml

def entries (t : Tree) (p : Path) : Except Fault (List Job) := do
  let format ← formatOf p
  let text ← (t.readText p).mapError Fault.io
  ofText format text

def load (t : Tree) (p : Path) : Except Fault (List Job) :=
  (entries t p).map Job.retainValid

def toText (jobs : List Job) : Format → String
  | .json => toJson jobs
  | .toml => toToml jobs

def save (t : Tree) (p : Path) (jobs : List Job) : Except Fault Tree := do
  let format ← formatOf p
  let text := toText jobs (format.getD .json)
  (t.write p (Text.Utf8.encode text.toList)).mapError Fault.io

end XmlDelta.Jobs
