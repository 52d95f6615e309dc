import XmlDelta.Text.Blank

set_option autoImplicit false

namespace XmlDelta.Compare

structure Job where
  oldFile : String
  newFile : String
  tags : List String
  deriving DecidableEq

inductive JobFault where
  | blankOldFile
  | blankNewFile
  deriving DecidableEq

def JobFault.message : JobFault → String
  | blankOldFile => "old_file must not be empty"
  | blankNewFile => "new_file must not be empty"

namespace Job

def label (j : Job) : String :=
  j.oldFile ++ " -> " ++ j.newFile

def defaults : List Job :=
  [⟨"file1.xml", "file2.xml", ["a", "root"]⟩]

def fault? (j : Job) : Option JobFault :=
  if Text.isBlankText j.oldFile then some .blankOldFile
  else if Text.isBlankText j.newFile then some .blankNewFile
  else none

def retainValid (jobs : List Job) : List Job :=
  jobs.filter fun j => j.fault?.isNone

def skipped (jobs : List Job) : List (Nat × JobFault) :=
  jobs.zipIdx.filterMap fun (j, i) => j.fault?.map (i, ·)

end Job

end XmlDelta.Compare
