import XmlDelta.Compare.Changes
import XmlDelta.Document.Locate

set_option autoImplicit false

namespace XmlDelta.Compare

open XmlDelta.Document

inductive Side where
  | old
  | new
  | both
  deriving DecidableEq, Repr

inductive InvalidReason where
  | tagNotFound (missingFrom : Side)
  | hierarchyMismatch (oldPath newPath : List String)
  deriving DecidableEq

def InvalidReason.message : InvalidReason → String
  | tagNotFound .old => "tag not found in the old file"
  | tagNotFound .new => "tag not found in the new file"
  | tagNotFound .both => "tag not found in either file"
  | hierarchyMismatch o n =>
    "tag is not at the same hierarchy level in both files (old: /" ++ String.intercalate "/" o ++
      ", new: /" ++ String.intercalate "/" n ++ ")"

inductive Verdict where
  | invalid (reason : InvalidReason)
  | compared (changes : Changes)

namespace Verdict

def isInvalid : Verdict → Bool
  | invalid _ => true
  | compared _ => false

def additionCount : Verdict → Nat
  | invalid _ => 0
  | compared c => c.additions.length

def removalCount : Verdict → Nat
  | invalid _ => 0
  | compared c => c.removals.length

def changeCount (v : Verdict) : Nat :=
  v.additionCount + v.removalCount

end Verdict

def compareLocated : Option Location → Option Location → Verdict
  | none, none => .invalid (.tagNotFound .both)
  | none, some _ => .invalid (.tagNotFound .old)
  | some _, none => .invalid (.tagNotFound .new)
  | some o, some n =>
    if o.path = n.path then .compared (changes o.element.children n.element.children)
    else .invalid (.hierarchyMismatch o.path n.path)

def compareDocuments (old new : Element) (tag : String) : Verdict :=
  compareLocated (locate old tag) (locate new tag)

end XmlDelta.Compare
