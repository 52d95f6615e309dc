import Mathlib.Data.List.TakeWhile
import XmlDelta.Document.Builder

set_option autoImplicit false

namespace XmlDelta.Document

open XmlDelta.Markup

/-- What stands inside an element, an element's own events taken together. -/
inductive Piece where
  | text (s : String)
  | cdata (s : String)
  | ignored
  | empty (t : StartTag)
  | paired (t : StartTag) (inner : List Piece)

namespace Piece

mutual

def events : Piece → List Event
  | text s => [.text (.ok s)]
  | cdata s => [.cdata (.ok s)]
  | ignored => [.ignored]
  | empty t => [.empty (.ok t)]
  | paired t inner => .start (.ok t) :: (eventsOfAll inner ++ [.finish])

def eventsOfAll : List Piece → List Event
  | [] => []
  | p :: ps => events p ++ eventsOfAll ps

end

def isNode : Piece → Bool
  | empty _ | paired _ _ => true
  | text _ | cdata _ | ignored => false

def data? : Piece → Option String
  | text s | cdata s => some s
  | ignored | empty _ | paired _ _ => none

def leadingData (ps : List Piece) : List String :=
  (ps.takeWhile fun p => !p.isNode).filterMap data?

def leading (ps : List Piece) : Option String :=
  if leadingData ps = [] then none else some (String.join (leadingData ps))

mutual

def element? : Piece → Option Element
  | empty t => some { tag := t.tag, attributes := t.attributes }
  | paired t inner => some ⟨t.tag, t.attributes, leading inner, elements inner⟩
  | text _ | cdata _ | ignored => none

def elements : List Piece → List Element
  | [] => []
  | p :: ps => (element? p).toList ++ elements ps

end

theorem eventsOfAll_append (ps qs : List Piece) :
    eventsOfAll (ps ++ qs) = eventsOfAll ps ++ eventsOfAll qs := by
  induction ps with
  | nil => rfl
  | cons p ps ih => simp only [List.cons_append, eventsOfAll, ih, List.append_assoc]

theorem elements_append (ps qs : List Piece) :
    elements (ps ++ qs) = elements ps ++ elements qs := by
  induction ps with
  | nil => rfl
  | cons p ps ih => simp only [List.cons_append, elements, ih, List.append_assoc]

theorem leadingData_append_of_node {ps : List Piece} (node : ps.any isNode = true) (p : Piece) :
    leadingData (ps ++ [p]) = leadingData ps := by
  have stops : (ps.takeWhile fun p => !p.isNode).length ≠ ps.length := by
    intro full
    have whole := (List.takeWhile_prefix fun p => !isNode p).eq_of_length full
    obtain ⟨q, inside, isNode⟩ := List.any_eq_true.mp node
    have := List.takeWhile_eq_self_iff.mp whole q inside
    simp [isNode] at this
  simp only [leadingData, List.takeWhile_append, stops, if_false]

theorem leadingData_append_of_no_node {ps : List Piece} (noNode : ps.any isNode = false)
    (p : Piece) : leadingData (ps ++ [p]) = leadingData ps ++ p.data?.toList := by
  have whole : (ps.takeWhile fun p => !p.isNode) = ps := by
    apply List.takeWhile_eq_self_iff.mpr
    intro q inside
    have := List.any_eq_false.mp noNode q inside
    simp [this]
  have last : leadingData [p] = p.data?.toList := by
    cases p <;> rfl
  simp only [leadingData, List.takeWhile_append, whole, if_true, List.filterMap_append] at last ⊢
  rw [last]

theorem leading_append_of_no_data (ps : List Piece) {p : Piece} (noData : p.data? = none) :
    leading (ps ++ [p]) = leading ps := by
  have same : leadingData (ps ++ [p]) = leadingData ps := by
    by_cases node : ps.any isNode = true
    · exact leadingData_append_of_node node p
    · rw [leadingData_append_of_no_node (by simpa using node), noData]
      exact List.append_nil _
  rw [leading, same, leading]

theorem leading_append_of_data (ps : List Piece) {p : Piece} {s : String}
    (data : p.data? = some s) :
    leading (ps ++ [p]) =
      if ps.any isNode then leading ps else some ((leading ps).getD "" ++ s) := by
  by_cases node : ps.any isNode = true
  · rw [leading, leadingData_append_of_node node, if_pos node, leading]
  · rw [leading, leadingData_append_of_no_node (by simpa using node), if_neg node, leading, data]
    by_cases none : leadingData ps = []
    · simp [none]
    · simp [none]

end Piece

/-- What may stand outside the root. -/
inductive Outer : Event → Prop where
  | ignored : Outer .ignored
  | blank {s : String} (blank : Text.isBlankText s = true) : Outer (.text (.ok s))

/-- The events of one node among outer ones, and the element the node denotes. -/
inductive Denotes : List Event → Element → Prop where
  | intro {before after : List Event} {node : Piece} {e : Element}
      (outerBefore : ∀ x ∈ before, Outer x) (denoted : node.element? = some e)
      (outerAfter : ∀ x ∈ after, Outer x) : Denotes (before ++ node.events ++ after) e

end XmlDelta.Document
