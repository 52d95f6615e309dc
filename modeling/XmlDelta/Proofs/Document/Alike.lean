import Mathlib.Data.List.Forall2
import XmlDelta.Proofs.Document.Visit

set_option autoImplicit false

namespace XmlDelta.Document

theorem Element.induction {motive : Element → Prop}
    (node : ∀ e : Element, (∀ c ∈ e.children, motive c) → motive e) (e : Element) : motive e :=
  node e fun c _ => induction node c
termination_by sizeOf e
decreasing_by
  rename_i inside
  have := List.sizeOf_lt_of_mem inside
  cases e
  simp only [Element.mk.sizeOf_spec] at this ⊢
  omega

def Attributes.SamePairs (as bs : Attributes) : Prop :=
  as.entries.Perm bs.entries

/-- Trees of one shape with the same tags and trimmed texts, whose attributes are the `same`. -/
inductive Element.Alike (same : Attributes → Attributes → Prop) : Element → Element → Prop where
  | intro {e f : Element} (tag : e.tag = f.tag) (attributes : same e.attributes f.attributes)
      (text : e.trimmedText = f.trimmedText)
      (children : List.Forall₂ (Alike same) e.children f.children) : Alike same e f

abbrev Element.Equivalent : Element → Element → Prop :=
  Element.Alike Attributes.SamePairs

section

variable {same : Attributes → Attributes → Prop}

namespace Element.Alike

theorem tag_eq {e f : Element} (alike : Alike same e f) : e.tag = f.tag := by
  cases alike with
  | intro tag _ _ _ => exact tag

theorem trimmedText_eq {e f : Element} (alike : Alike same e f) :
    e.trimmedText = f.trimmedText := by
  cases alike with
  | intro _ _ text _ => exact text

theorem attributes_same {e f : Element} (alike : Alike same e f) :
    same e.attributes f.attributes := by
  cases alike with
  | intro _ attributes _ _ => exact attributes

theorem children_alike {e f : Element} (alike : Alike same e f) :
    List.Forall₂ (Alike same) e.children f.children := by
  cases alike with
  | intro _ _ _ children => exact children

theorem induction {motive : Element → Element → Prop}
    (node : ∀ {e f : Element}, Alike same e f → List.Forall₂ motive e.children f.children →
      motive e f)
    {e f : Element} (alike : Alike same e f) : motive e f := by
  induction e using Element.induction generalizing f with
  | node e ih =>
    -- The hypothesis is about members of the list, so it shrinks along with the pairs.
    apply node alike
    have pairs := alike.children_alike
    generalize e.children = cs, f.children = ds at ih pairs
    induction pairs with
    | nil => exact .nil
    | cons first _ rest =>
      exact .cons (ih _ (by simp) first) (rest fun c inside => ih c (by simp [inside]))

theorem refl (reflexive : ∀ as, same as as) (e : Element) : Alike same e e := by
  induction e using Element.induction with
  | node e ih => exact .intro rfl (reflexive _) rfl (List.forall₂_same.mpr ih)

theorem symm (symmetric : ∀ as bs, same as bs → same bs as) {e f : Element}
    (alike : Alike same e f) : Alike same f e := by
  apply alike.induction
  intro e f alike children
  exact .intro alike.tag_eq.symm (symmetric _ _ alike.attributes_same) alike.trimmedText_eq.symm
    children.flip

theorem weaken {coarser : Attributes → Attributes → Prop}
    (weaker : ∀ as bs, same as bs → coarser as bs) {e f : Element} (alike : Alike same e f) :
    Alike coarser e f := by
  apply alike.induction
  intro e f alike children
  exact .intro alike.tag_eq (weaker _ _ alike.attributes_same) alike.trimmedText_eq children

end Element.Alike

def VisitsAlike (same : Attributes → Attributes → Prop) : List Visit → List Visit → Prop :=
  List.Forall₂ fun v w => Element.Alike same v.1 w.1 ∧ v.2 = w.2

structure Location.Alike (same : Attributes → Attributes → Prop) (l m : Location) : Prop where
  element : Element.Alike same l.element m.element
  path : l.path = m.path

theorem below_alike {e f : Element} (alike : Element.Alike same e f) (above : List String) :
    VisitsAlike same (below e above) (below f above) := by
  unfold below VisitsAlike
  rw [List.forall₂_map_left_iff, List.forall₂_map_right_iff, alike.tag_eq]
  exact alike.children_alike.imp fun _ _ children => ⟨children, rfl⟩

theorem visit_alike (tag : String) {vs ws : List Visit} (alike : VisitsAlike same vs ws) :
    Option.Rel (Location.Alike same) (visit tag vs) (visit tag ws) := by
  fun_induction visit tag vs generalizing ws with
  | case1 =>
    cases alike
    rw [visit]
    exact .none
  | case2 e above vs hit =>
    rcases alike with _ | @⟨_, w, _, ws, ⟨first, rfl⟩, rest⟩
    rw [visit, if_pos (first.tag_eq ▸ hit)]
    exact .some ⟨first, rfl⟩
  | case3 e above vs miss ih =>
    rcases alike with _ | @⟨_, w, _, ws, ⟨first, rfl⟩, rest⟩
    rw [visit, if_neg (first.tag_eq ▸ miss)]
    exact ih (List.rel_append (below_alike first _) rest)

theorem locate_alike {e f : Element} (alike : Element.Alike same e f) (tag : String) :
    Option.Rel (Location.Alike same) (locate e tag) (locate f tag) := by
  rw [locate, locate, walk_root, walk_root]
  exact visit_alike tag (.cons ⟨alike, rfl⟩ .nil)

end

end XmlDelta.Document
