import XmlDelta.Proofs.Compare.Noise
import XmlDelta.Proofs.Document.Place

set_option autoImplicit false

namespace XmlDelta.Compare

open XmlDelta.Document

def bare (e : Element) : Element :=
  { e with children := [] }

theorem signature_bare (e : Element) : signature (bare e) = signature e :=
  rfl

theorem changes_eq_nil_of_bare {cs ds : List Element}
    (same : ∀ b, b ∈ cs.map bare ↔ b ∈ ds.map bare) : changes cs ds = ⟨[], []⟩ := by
  apply changes_eq_nil_of_signatures
  have signatures : ∀ es : List Element, es.map signature = (es.map bare).map signature := by
    intro es
    rw [List.map_map]
    exact List.map_congr_left fun e _ => (signature_bare e).symm
  intro s
  rw [signatures cs, signatures ds, List.mem_map, List.mem_map]
  exact exists_congr fun b => and_congr_left fun _ => same b

theorem compareDocuments_of_locate {old new : Element} {tag : String} {l m : Location}
    (inOld : locate old tag = some l) (inNew : locate new tag = some m) (path : l.path = m.path) :
    compareDocuments old new tag = .compared (changes l.element.children m.element.children) := by
  rw [compareDocuments, inOld, inNew, compareLocated, if_pos path]

/-- The first occurrence of the tag stands in a place `p` that nothing with the tag comes before.
Any other element of the tag may take its place, and all that follows in document order may change;
children reordered, repeated or changed only below themselves are the same children. -/
theorem compareDocuments_edit {d : Element} {tag : String} {l : Location}
    (found : locate d tag = some l) :
    (∃ p : Place, p.Clear tag ∧ p.fill l.element = d) ∧
    ∀ p : Place, p.Clear tag → p.fill l.element = d → l.path = p.path ∧
      ∀ (q : Place) (e : Element), p.SameUntil q → e.tag = tag →
        locate (q.fill e) tag = some ⟨e, l.path⟩ ∧
        compareDocuments d (q.fill e) tag = .compared (changes l.element.children e.children) ∧
        ((∀ b, b ∈ l.element.children.map bare ↔ b ∈ e.children.map bare) →
          compareDocuments d (q.fill e) tag = .compared ⟨[], []⟩) := by
  obtain ⟨tagged, place⟩ := exists_place_of_locate found
  refine ⟨place, ?_⟩
  intro p clear filled
  have path : l.path = p.path := by
    have here := locate_fill clear tagged
    rw [filled, found] at here
    exact congrArg Location.path (Option.some.inj here)
  refine ⟨path, ?_⟩
  intro q e same kept
  have edited : locate (q.fill e) tag = some ⟨e, l.path⟩ := by
    rw [locate_fill (same.clear clear) kept, path, same.path_eq]
  have compared := compareDocuments_of_locate found edited rfl
  refine ⟨edited, compared, ?_⟩
  intro children
  rw [compared, changes_eq_nil_of_bare children]

theorem compareDocuments_edit_nested :
    let a : Element := { tag := "a", text := some "1" }
    let b : Element := { tag := "b" }
    let t : Element := { tag := "t", children := [a, b] }
    let t' : Element :=
      { tag := "t", text := some "new", children := [b, { tag := "c", children := [t] }] }
    let d : Element := { tag := "r", children := [a, { tag := "m", children := [b, t, t] }, t] }
    let d' : Element := { tag := "r", children := [a, { tag := "m", children := [b, t'] }, t', b] }
    locate d "t" = some ⟨t, ["r", "m"]⟩ ∧
      locate d' "t" = some ⟨t', ["r", "m"]⟩ ∧
      compareDocuments d d' "t" = .compared (changes t.children t'.children) ∧
      (changes t.children t'.children).additions.map Element.tag = ["c"] ∧
      (changes t.children t'.children).removals.map Element.tag = ["a"] := by
  intro a b t t' d d'
  have found : locate d "t" = some ⟨t, ["r", "m"]⟩ := by
    simp [locate, visit, below, d, a, b, t]
  let p : Place := [{ tag := "r", before := [a], after := [t] },
    { tag := "m", before := [b], after := [t] }]
  let q : Place := [{ tag := "r", before := [a], after := [t', b] }, { tag := "m", before := [b] }]
  have clear : p.Clear "t" := by
    unfold Place.Clear
    decide
  have same : p.SameUntil q := .cons ⟨rfl, rfl⟩ (.cons ⟨rfl, rfl⟩ .nil)
  obtain ⟨edited, compared, -⟩ := ((compareDocuments_edit found).2 p clear rfl).2 q t' same rfl
  exact ⟨found, edited, compared, by decide +kernel, by decide +kernel⟩

end XmlDelta.Compare
