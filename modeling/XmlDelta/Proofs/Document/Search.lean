import XmlDelta.Proofs.Document.Place

set_option autoImplicit false

namespace XmlDelta.Document

def Location.beneath (above : List String) (l : Location) : Location :=
  { l with path := above ++ l.path }

theorem Location.beneath_append (above tags : List String) :
    Location.beneath (above ++ tags) = Location.beneath above ∘ Location.beneath tags := by
  funext l
  simp [beneath]

namespace Element

mutual

def search (tag : String) : Element → Option Location
  | ⟨t, as, x, cs⟩ =>
    if t = tag then some ⟨⟨t, as, x, cs⟩, []⟩
    else (searchList tag cs).map (Location.beneath [t])

def searchList (tag : String) : List Element → Option Location
  | [] => none
  | c :: cs => (search tag c).or (searchList tag cs)

end

variable {tag : String}

theorem searchList_eq_findSome? (cs : List Element) :
    searchList tag cs = cs.findSome? (search tag) := by
  induction cs with
  | nil => rfl
  | cons c cs ih =>
    rw [searchList, List.findSome?_cons, ih]
    cases search tag c <;> rfl

theorem search_eq (e : Element) :
    e.search tag =
      if e.tag = tag then some ⟨e, []⟩
      else (e.children.findSome? (search tag)).map (Location.beneath [e.tag]) := by
  cases e
  rw [search, searchList_eq_findSome?]

theorem map_element_search (e : Element) :
    (e.search tag).map Location.element = e.nodes.find? fun x => x.tag == tag := by
  induction e using Element.induction with
  | node e ih =>
    rw [search_eq, nodes_eq, List.find?_cons]
    by_cases hit : e.tag = tag
    · simp [hit]
    · have children : e.children.findSome? (fun c => (c.search tag).map Location.element) =
          e.children.findSome? fun c => c.nodes.find? fun x => x.tag == tag := by
        rw [← List.head?_filterMap, ← List.head?_filterMap, List.filterMap_congr ih]
      have path (l : Location) : (l.beneath [e.tag]).element = l.element := rfl
      simp only [hit, if_false, beq_false_of_ne hit, List.find?_flatMap, ← children,
        Option.map_map, Function.comp_def, path, List.map_findSome?]

theorem search_eq_none_iff (e : Element) : e.search tag = none ↔ ∀ x ∈ e.nodes, x.tag ≠ tag := by
  rw [← Option.map_eq_none_iff, map_element_search, List.find?_eq_none]
  simp only [beq_iff_eq, ne_eq]

end Element

variable {tag : String}

theorem visit_eq_findSome? (vs : List Visit) :
    visit tag vs = vs.findSome? fun v => (v.1.search tag).map (Location.beneath v.2.reverse) := by
  fun_induction visit tag vs with
  | case1 => rfl
  | case2 e above vs hit =>
    rw [List.findSome?_cons, Element.search_eq, if_pos hit]
    simp [Location.beneath]
  | case3 e above vs miss ih =>
    have first : (below e above).findSome? (fun v =>
          (v.1.search tag).map (Location.beneath v.2.reverse)) =
        (e.search tag).map (Location.beneath above.reverse) := by
      rw [Element.search_eq, if_neg miss, below, List.findSome?_map, List.map_findSome?,
        List.map_findSome?]
      simp only [Function.comp_def, List.reverse_cons, Option.map_map, Location.beneath_append]
    rw [ih, List.findSome?_append, first, List.findSome?_cons]
    cases (e.search tag).map (Location.beneath above.reverse) <;> rfl

theorem locate_eq_search (root : Element) : locate root tag = root.search tag := by
  rw [locate, walk_root, visit_eq_findSome?, List.findSome?_singleton]
  have same : Location.beneath [] = id := rfl
  rw [List.reverse_nil, same, Option.map_id, id]

theorem Place.Clear.not_mem_path {p : Place} (clear : p.Clear tag) : tag ∉ p.path := by
  intro inside
  obtain ⟨l, layer, same⟩ := List.mem_map.mp inside
  exact (clear l layer).1 same

/-- The place of what is found is the one of which the tag neither stands above nor comes before it;
the path is that place's. -/
theorem locate_first_in_order (root : Element) (tag : String) :
    locate root tag = root.search tag ∧
    (locate root tag = none ↔ ∀ x ∈ root.nodes, x.tag ≠ tag) ∧
    ∀ l, locate root tag = some l →
      (root.nodes.find? fun x => x.tag == tag) = some l.element ∧
      (∃ p : Place, p.fill l.element = root ∧ p.Clear tag ∧ l.path = p.path) ∧
      tag ∉ l.path := by
  refine ⟨locate_eq_search root, ?_, ?_⟩
  · rw [locate_eq_search, Element.search_eq_none_iff]
  · intro l found
    obtain ⟨tagged, p, clear, filled⟩ := exists_place_of_locate found
    have path : l.path = p.path := by
      have here := locate_fill clear tagged
      rw [filled, found] at here
      exact congrArg Location.path (Option.some.inj here)
    refine ⟨?_, ⟨p, filled, clear, path⟩, path ▸ clear.not_mem_path⟩
    rw [← Element.map_element_search, ← locate_eq_search, found, Option.map_some]

theorem locate_first_in_order_secondBranch :
    let x : Element := { tag := "x" }
    let y : Element := { tag := "y", children := [x] }
    let t : Element := { tag := "t", children := [{ tag := "t" }] }
    let d : Element := { tag := "r", children :=
      [{ tag := "a", children := [x, y] }, { tag := "b", children := [x, t, { tag := "t" }] }, t] }
    locate d "t" = some ⟨t, ["r", "b"]⟩ ∧
      (d.nodes.find? fun e => e.tag == "t") = some t ∧
      (∃ p : Place, p.fill t = d ∧ p.Clear "t" ∧ ["r", "b"] = p.path) ∧ "t" ∉ ["r", "b"] ∧
      locate d "z" = none := by
  intro x y t d
  have found : locate d "t" = some ⟨t, ["r", "b"]⟩ := by
    simp [locate, visit, below, d, x, y, t]
  have absent : ∀ e ∈ d.nodes, e.tag ≠ "z" := by
    decide
  obtain ⟨first, place, fresh⟩ := (locate_first_in_order d "t").2.2 _ found
  exact ⟨found, first, place, fresh, (locate_first_in_order d "z").2.1.mpr absent⟩

end XmlDelta.Document
