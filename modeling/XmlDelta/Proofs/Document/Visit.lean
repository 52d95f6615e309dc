import XmlDelta.Document.Locate

set_option autoImplicit false

namespace XmlDelta.Document

abbrev Visit := Element × List String

def below (e : Element) (above : List String) : List Visit :=
  e.children.map (·, e.tag :: above)

def visit (tag : String) (vs : List Visit) : Option Location :=
  match vs with
  | [] => none
  | (e, above) :: vs =>
    if e.tag = tag then some ⟨e, above.reverse⟩
    else visit tag (below e above ++ vs)
termination_by waitingSize vs
decreasing_by exact waitingSize_children e above (e.tag :: above) vs

def visits (above : List String) (stack : List Pending) : List Visit :=
  stack.map fun p => (p.1, (above.take p.2).reverse)

theorem visits_cons (above : List String) (e : Element) (depth : Nat) (stack : List Pending) :
    visits above ((e, depth) :: stack) = (e, (above.take depth).reverse) :: visits above stack :=
  rfl

-- No element is deeper than those visited before it, and the list of tags reaches down to all.
structure Within (above : List String) (stack : List Pending) : Prop where
  depths : stack.Pairwise fun p q => q.2 ≤ p.2
  reaches : ∀ p ∈ stack, p.2 ≤ above.length

theorem visits_take_append {above : List String} {depth : Nat} (reaches : depth ≤ above.length)
    {stack : List Pending} (shallow : ∀ p ∈ stack, p.2 ≤ depth) (tags : List String) :
    visits (above.take depth ++ tags) stack = visits above stack := by
  refine List.map_congr_left fun p inside => ?_
  have short : p.2 ≤ (above.take depth).length := by
    rw [List.length_take, Nat.min_eq_left reaches]
    exact shallow p inside
  rw [List.take_append_of_le_length short, List.take_take, Nat.min_eq_left (shallow p inside)]

theorem visits_children {above : List String} {e : Element} {depth : Nat} {stack : List Pending}
    (within : Within above ((e, depth) :: stack)) :
    visits (above.take depth ++ [e.tag]) (pushChildren e depth stack) =
      below e (above.take depth).reverse ++ visits above stack := by
  obtain ⟨shallow, -⟩ := List.pairwise_cons.mp within.depths
  have reaches : depth ≤ above.length := within.reaches _ List.mem_cons_self
  have whole : (above.take depth ++ [e.tag]).take (depth + 1) = above.take depth ++ [e.tag] := by
    rw [List.take_of_length_le]
    rw [List.length_append, List.length_take, Nat.min_eq_left reaches]
    exact Nat.le_refl _
  rw [pushChildren_eq, ← visits_take_append reaches shallow [e.tag]]
  simp only [visits, below, List.map_append, List.map_map]
  congr 1
  refine List.map_congr_left fun c _ => ?_
  simp only [Function.comp_apply, whole, List.reverse_append, List.reverse_singleton,
    List.singleton_append]

theorem Within.children {above : List String} {e : Element} {depth : Nat} {stack : List Pending}
    (within : Within above ((e, depth) :: stack)) :
    Within (above.take depth ++ [e.tag]) (pushChildren e depth stack) := by
  obtain ⟨shallow, depths⟩ := List.pairwise_cons.mp within.depths
  have reaches : depth ≤ above.length := within.reaches _ List.mem_cons_self
  have length : (above.take depth ++ [e.tag]).length = depth + 1 := by
    rw [List.length_append, List.length_take, Nat.min_eq_left reaches]
    rfl
  rw [pushChildren_eq]
  constructor
  · refine List.pairwise_append.mpr ⟨?_, depths, ?_⟩
    · exact List.pairwise_map.mpr (List.pairwise_of_forall fun _ _ => Nat.le_refl _)
    · intro p inside q lower
      obtain ⟨c, -, rfl⟩ := List.mem_map.mp inside
      exact Nat.le_succ_of_le (shallow q lower)
  · rw [length]
    intro p inside
    rcases List.mem_append.mp inside with inside | inside
    · obtain ⟨c, -, rfl⟩ := List.mem_map.mp inside
      exact Nat.le_refl _
    · exact Nat.le_succ_of_le (shallow p inside)

theorem walk_eq_visit (tag : String) {above : Array String} {stack : List Pending}
    (within : Within above.toList stack) :
    walk tag above stack = visit tag (visits above.toList stack) := by
  fun_induction walk tag above stack with
  | case1 => rw [visits, List.map_nil, visit]
  | case2 above e depth stack cut hit =>
    rw [visits_cons, visit, if_pos hit, List.reverse_reverse, Array.toList_shrink]
  | case3 above e depth stack cut miss ih =>
    have tags : (cut.push e.tag).toList = above.toList.take depth ++ [e.tag] := by
      rw [Array.toList_push, Array.toList_shrink]
    rw [tags] at ih
    rw [ih within.children, visits_children within, visits_cons, visit, if_neg miss]

@[simp]
theorem walk_root (root : Element) (tag : String) :
    walk tag #[] [(root, 0)] = visit tag [(root, [])] :=
  walk_eq_visit tag ⟨List.pairwise_singleton .., by simp⟩

end XmlDelta.Document
