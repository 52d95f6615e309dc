import XmlDelta.Document.Element

set_option autoImplicit false

namespace XmlDelta.Document

structure Location where
  element : Element
  path : List String

namespace Element

mutual

def size : Element → Nat
  | ⟨_, _, _, cs⟩ => 1 + sizeOfAll cs

def sizeOfAll : List Element → Nat
  | [] => 0
  | c :: cs => size c + sizeOfAll cs

end

end Element

theorem sizeOfAll_append (xs ys : List Element) :
    Element.sizeOfAll (xs ++ ys) = Element.sizeOfAll xs + Element.sizeOfAll ys := by
  induction xs with
  | nil => simp [Element.sizeOfAll]
  | cons x xs ih => simp [Element.sizeOfAll, ih, Nat.add_assoc]

def waitingSize {α : Type} (ws : List (Element × α)) : Nat :=
  Element.sizeOfAll (ws.map Prod.fst)

theorem waitingSize_children {α : Type} (e : Element) (a b : α) (ws : List (Element × α)) :
    waitingSize (e.children.map (·, b) ++ ws) < waitingSize ((e, a) :: ws) := by
  cases e with
  | mk t as x cs =>
    have hm : (cs.map fun c => (c, b)).map Prod.fst = cs := by
      simp [List.map_map, Function.comp_def]
    simp only [waitingSize, List.map_append, hm, sizeOfAll_append, List.map_cons,
      Element.sizeOfAll, Element.size]
    omega

abbrev Pending := Element × Nat

def pushChildren (e : Element) (depth : Nat) (stack : List Pending) : List Pending :=
  -- The last child goes first, so that the first one comes to lie on top.
  e.children.reverse.foldl (fun stack c => (c, depth + 1) :: stack) stack

theorem pushChildren_eq (e : Element) (depth : Nat) (stack : List Pending) :
    pushChildren e depth stack = e.children.map (·, depth + 1) ++ stack := by
  simp [pushChildren]

def walk (tag : String) (above : Array String) (stack : List Pending) : Option Location :=
  match stack with
  | [] => none
  | (e, depth) :: stack =>
    -- What other branches left in the list is cut off.
    let above := above.shrink depth
    if e.tag = tag then some ⟨e, above.toList⟩
    else walk tag (above.push e.tag) (pushChildren e depth stack)
termination_by waitingSize stack
decreasing_by
  rw [pushChildren_eq]
  exact waitingSize_children e depth (depth + 1) stack

def locate (root : Element) (tag : String) : Option Location :=
  walk tag #[] [(root, 0)]

end XmlDelta.Document
