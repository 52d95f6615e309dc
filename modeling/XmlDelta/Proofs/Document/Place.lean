import XmlDelta.Proofs.Document.Alike
import XmlDelta.Proofs.Document.Locate

set_option autoImplicit false

namespace XmlDelta.Document

structure Layer where
  tag : String
  attributes : Attributes := {}
  text : Option String := none
  before : List Element := []
  after : List Element := []

def Layer.around (l : Layer) (e : Element) : Element :=
  ⟨l.tag, l.attributes, l.text, l.before ++ e :: l.after⟩

abbrev Place := List Layer

namespace Place

def fill (p : Place) (e : Element) : Element :=
  p.foldr Layer.around e

def path (p : Place) : List String :=
  p.map Layer.tag

def Clear (tag : String) (p : Place) : Prop :=
  -- Nothing that comes before the hole in document order has the tag.
  ∀ l ∈ p, l.tag ≠ tag ∧ ∀ b ∈ l.before, ¬ b.Has tag

def SameUntil (p q : Place) : Prop :=
  -- The same tags above the hole and the same elements before it; all else is free.
  List.Forall₂ (fun l m => l.tag = m.tag ∧ l.before = m.before) p q

theorem SameUntil.path_eq {p q : Place} (same : p.SameUntil q) : p.path = q.path := by
  induction same with
  | nil => rfl
  | cons layer _ ih => exact congrArg₂ List.cons layer.1 ih

theorem SameUntil.clear {tag : String} {p q : Place} (same : p.SameUntil q)
    (clear : p.Clear tag) : q.Clear tag := by
  induction same with
  | nil => exact clear
  | @cons l m p q layer rest ih =>
    obtain ⟨first, clear⟩ := List.forall_mem_cons.mp clear
    rw [layer.1, layer.2] at first
    exact List.forall_mem_cons.mpr ⟨first, ih clear⟩

end Place

variable {tag : String}

theorem visit_append_of_not_has {vs : List Visit} (absent : ∀ v ∈ vs, ¬ v.1.Has tag)
    (ws : List Visit) : visit tag (vs ++ ws) = visit tag ws := by
  fun_induction visit tag vs with
  | case1 => rfl
  | case2 e above vs hit =>
    exact absurd ((e.has_iff tag).mpr (.inl hit)) (absent _ List.mem_cons_self)
  | case3 e above vs miss ih =>
    rw [List.cons_append, visit, if_neg miss, ← List.append_assoc]
    apply ih
    obtain ⟨first, rest⟩ := List.forall_mem_cons.mp absent
    refine List.forall_mem_append.mpr ⟨?_, rest⟩
    intro v inside
    obtain ⟨c, child, rfl⟩ := List.mem_map.mp inside
    intro has
    exact first ((e.has_iff tag).mpr (.inr ⟨c, child, has⟩))

theorem visit_fill {p : Place} {e : Element} (clear : p.Clear tag) (same : e.tag = tag)
    (above : List String) (vs : List Visit) :
    visit tag ((p.fill e, above) :: vs) = some ⟨e, above.reverse ++ p.path⟩ := by
  induction p generalizing above vs with
  | nil =>
    rw [visit]
    simp [Place.fill, Place.path, same]
  | cons l p ih =>
    obtain ⟨first, clear⟩ := List.forall_mem_cons.mp clear
    have absent : ∀ v ∈ l.before.map (·, l.tag :: above), ¬ v.1.Has tag := by
      intro v inside
      obtain ⟨b, before, rfl⟩ := List.mem_map.mp inside
      exact first.2 b before
    have children : below (Place.fill (l :: p) e) above ++ vs =
        l.before.map (·, l.tag :: above) ++ (Place.fill p e, l.tag :: above) ::
          (l.after.map (·, l.tag :: above) ++ vs) := by
      simp [below, Place.fill, Layer.around]
    have miss : (Place.fill (l :: p) e).tag ≠ tag := first.1
    rw [visit, if_neg miss, children, visit_append_of_not_has absent, ih clear]
    simp [Place.path]

theorem locate_fill {p : Place} {e : Element} (clear : p.Clear tag) (same : e.tag = tag) :
    locate (p.fill e) tag = some ⟨e, p.path⟩ := by
  rw [locate, walk_root, visit_fill clear same]
  rfl

instance (tag : String) (e : Element) : Decidable (e.Has tag) :=
  inferInstanceAs (Decidable (∃ x ∈ e.nodes, x.tag = tag))

theorem exists_place {d : Element} (has : d.Has tag) :
    ∃ (p : Place) (e : Element), p.Clear tag ∧ e.tag = tag ∧ p.fill e = d := by
  induction d using Element.induction with
  | node d ih =>
    by_cases hit : d.tag = tag
    · exact ⟨[], d, by simp [Place.Clear], hit, rfl⟩
    · obtain ⟨c, child, has⟩ := ((d.has_iff tag).mp has).resolve_left hit
      -- The search goes into the first child that has the tag, not into any.
      have some : (d.children.find? fun c => decide (c.Has tag)).isSome = true :=
        List.find?_isSome.mpr ⟨c, child, by simpa using has⟩
      obtain ⟨c, found⟩ := Option.isSome_iff_exists.mp some
      obtain ⟨has, before, after, split, absent⟩ := List.find?_eq_some_iff_append.mp found
      obtain ⟨p, e, clear, same, filled⟩ := ih c (by simp [split]) (by simpa using has)
      refine ⟨⟨d.tag, d.attributes, d.text, before, after⟩ :: p, e, ?_, same, ?_⟩
      · exact List.forall_mem_cons.mpr ⟨⟨hit, by simpa using absent⟩, clear⟩
      · obtain ⟨t, as, x, cs⟩ := d
        obtain rfl : cs = before ++ c :: after := split
        exact congrArg (Layer.around ⟨t, as, x, before, after⟩) filled

theorem exists_place_of_locate {d : Element} {l : Location} (found : locate d tag = some l) :
    l.element.tag = tag ∧ ∃ p : Place, p.Clear tag ∧ p.fill l.element = d := by
  have has : d.Has tag := (locate_isSome_iff d tag).mp (by rw [found]; rfl)
  obtain ⟨p, e, clear, same, rfl⟩ := exists_place has
  rw [locate_fill clear same] at found
  obtain rfl := Option.some.inj found
  exact ⟨same, p, clear, rfl⟩

end XmlDelta.Document
