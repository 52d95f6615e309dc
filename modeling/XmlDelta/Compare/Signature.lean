import XmlDelta.Document.Element

set_option autoImplicit false

namespace XmlDelta.Compare

open XmlDelta.Document

def keyLe (a b : String × String) : Bool :=
  decide (a.1 ≤ b.1)

def sortAttributes (as : Attributes) : Keyed String :=
  as.entries.mergeSort keyLe

theorem sortAttributes_perm (as : Attributes) : (sortAttributes as).Perm as.entries :=
  List.mergeSort_perm as.entries keyLe

def signature (e : Element) : String :=
  e.tag ++ "|" ++ String.join ((sortAttributes e.attributes).map fun a => a.1 ++ "=" ++ a.2) ++
    "|" ++ e.trimmedText

end XmlDelta.Compare
