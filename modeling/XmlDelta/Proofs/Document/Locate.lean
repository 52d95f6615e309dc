import Mathlib.Logic.Basic
import XmlDelta.Proofs.Document.Visit

set_option autoImplicit false

namespace XmlDelta.Document

def Element.Has (tag : String) (e : Element) : Prop :=
  ∃ x ∈ e.nodes, x.tag = tag

theorem Element.has_iff (tag : String) (e : Element) :
    e.Has tag ↔ e.tag = tag ∨ ∃ c ∈ e.children, c.Has tag := by
  simp only [Has, nodes_eq e, List.mem_cons, List.mem_flatMap, or_and_right, exists_or,
    exists_eq_left]
  refine or_congr Iff.rfl ⟨?_, ?_⟩
  · rintro ⟨x, ⟨c, child, inside⟩, same⟩
    exact ⟨c, child, x, inside, same⟩
  · rintro ⟨c, child, x, inside, same⟩
    exact ⟨x, ⟨c, child, inside⟩, same⟩

theorem visit_isSome_iff (tag : String) (vs : List Visit) :
    (visit tag vs).isSome = true ↔ ∃ v ∈ vs, v.1.Has tag := by
  fun_induction visit tag vs with
  | case1 => simp
  | case2 e above vs hit => simp [Element.has_iff tag e, hit]
  | case3 e above vs miss ih =>
    rw [ih]
    simp only [below, List.mem_append, List.mem_map, List.mem_cons, or_and_right, exists_or,
      exists_eq_left, exists_exists_and_eq_and, Element.has_iff tag e, miss, false_or]

theorem locate_isSome_iff (root : Element) (tag : String) :
    (locate root tag).isSome = true ↔ root.Has tag := by
  rw [locate, walk_root, visit_isSome_iff]
  simp

end XmlDelta.Document
