import XmlDelta.Compare.Signature

set_option autoImplicit false

namespace XmlDelta.Compare

open XmlDelta.Document

structure Changes where
  additions : List Element
  removals : List Element

def bySignature (cs : List Element) : Keyed Element :=
  Keyed.index signature cs

def onlyIn (side other : Keyed Element) : List Element :=
  (side.filter fun p => !(Keyed.keys other).contains p.1).map Prod.snd

def changes (old new : List Element) : Changes :=
  let o := bySignature old
  let n := bySignature new
  ⟨onlyIn n o, onlyIn o n⟩

def Changes.isEmpty (c : Changes) : Bool :=
  c.additions.isEmpty && c.removals.isEmpty

end XmlDelta.Compare
