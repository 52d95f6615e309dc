import XmlDelta.Keyed
import XmlDelta.Text.Blank

set_option autoImplicit false

namespace XmlDelta.Document

open XmlDelta.Text (trim)

@[ext]
structure Attributes where
  entries : Keyed String := []
  distinct : entries.keys.Nodup := by exact List.nodup_nil

namespace Attributes

def set (k v : String) (as : Attributes) : Attributes :=
  ⟨Keyed.set k v as.entries, Keyed.nodup_keys_set k v as.distinct⟩

end Attributes

structure Element where
  tag : String
  attributes : Attributes := {}
  text : Option String := none
  children : List Element := []

namespace Element

def trimmedText (e : Element) : String :=
  match e.text with
  | some s => trim s
  | none => ""

mutual

def nodes : Element → List Element
  | ⟨t, a, x, cs⟩ => ⟨t, a, x, cs⟩ :: nodesList cs

def nodesList : List Element → List Element
  | [] => []
  | c :: cs => nodes c ++ nodesList cs

end

theorem nodesList_eq_flatMap (cs : List Element) : nodesList cs = cs.flatMap nodes := by
  induction cs with
  | nil => simp [nodesList]
  | cons c cs ih => simp [nodesList, ih]

theorem nodes_eq (e : Element) : e.nodes = e :: e.children.flatMap nodes := by
  cases e with
  | mk t a x cs => simp [nodes, nodesList_eq_flatMap]

end Element

end XmlDelta.Document
