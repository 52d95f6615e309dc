import XmlDelta.Compare.Job
import XmlDelta.Disk.Tree
import XmlDelta.Report.View
import XmlDelta.Text.Split

set_option autoImplicit false

namespace XmlDelta.CommandLine

open XmlDelta.Compare (Job)
open XmlDelta.Disk (Path Tree)
open XmlDelta.Text (split trim)

structure Options where
  baseDir : Option Path := none
  config : Option Path := none
  oldFile : Option String := none
  newFile : Option String := none
  tagLists : List String := []
  saveConfig : Option Path := none
  format : Option Report.Format := none
  jobs : Option Nat := none
  verbose : Bool := false
  quiet : Bool := false
  debug : Bool := false
  failOnChanges : Bool := false

def tagsOf (list : String) : List String :=
  ((split ',' list.toList).map fun cs => trim (String.ofList cs)).filter (· != "")

inductive OptionsFault where
  | baseNotDirectory (path : Path)
  | noConcurrency
  | noTags
  deriving DecidableEq

def OptionsFault.message : OptionsFault → String
  | baseNotDirectory p => "Base path is not a directory: " ++ p
  | noConcurrency => "Number of concurrent jobs must be greater than 0"
  | noTags => "At least one --tag is required with --old/--new"

namespace Options

def tags (o : Options) : List String :=
  o.tagLists.flatMap tagsOf

def job? (o : Options) : Option Job :=
  match o.oldFile, o.newFile with
  | some a, some b => some ⟨a, b, o.tags⟩
  | _, _ => none

def baseFault? (t : Tree) (o : Options) : Option OptionsFault :=
  match o.baseDir with
  | some p => if t.pathExists p && !t.isDirectory p then some (.baseNotDirectory p) else none
  | none => none

def fault? (t : Tree) (o : Options) : Option OptionsFault :=
  match o.baseFault? t with
  | some f => some f
  | none =>
    if o.jobs = some 0 then some .noConcurrency
    else if o.job?.isSome && o.tags.isEmpty then some .noTags
    else none

end Options

end XmlDelta.CommandLine
