import Mathlib.Data.List.Nodup
import XmlDelta.Compare.Verdict
import XmlDelta.Proofs.Document.Alike
import XmlDelta.Proofs.Keyed.Index

set_option autoImplicit false

namespace XmlDelta.Compare

open XmlDelta.Document

theorem keyLe_total (a b : String × String) : (keyLe a b || keyLe b a) = true := by
  simpa [keyLe] using String.le_total a.1 b.1

theorem keyLe_trans (a b c : String × String) (ab : keyLe a b = true) (bc : keyLe b c = true) :
    keyLe a c = true := by
  simp only [keyLe, decide_eq_true_eq] at ab bc ⊢
  exact String.le_trans ab bc

theorem sortAttributes_sorted (as : Attributes) :
    (sortAttributes as).Pairwise fun a b => keyLe a b = true :=
  List.pairwise_mergeSort keyLe_trans keyLe_total as.entries

theorem eq_sortAttributes {as : Attributes} {entries : Keyed String}
    (perm : entries.Perm as.entries) (sorted : entries.Pairwise fun a b => keyLe a b = true) :
    entries = sortAttributes as := by
  have both : entries.Perm (sortAttributes as) := perm.trans (sortAttributes_perm as).symm
  refine both.eq_of_pairwise ?_ sorted (sortAttributes_sorted as)
  intro a b inLeft inRight ab ba
  have keys : a.1 = b.1 := by
    simp only [keyLe, decide_eq_true_eq] at ab ba
    exact String.le_antisymm ab ba
  exact List.inj_on_of_nodup_map as.distinct (perm.subset inLeft)
    ((sortAttributes_perm as).subset inRight) keys

theorem sortAttributes_eq {as bs : Attributes} (same : as.SamePairs bs) :
    sortAttributes as = sortAttributes bs :=
  eq_sortAttributes ((sortAttributes_perm as).trans same) (sortAttributes_sorted as)

theorem signature_eq_of_alike {e f : Element} (alike : Element.Equivalent e f) :
    signature e = signature f := by
  simp only [signature, alike.tag_eq, sortAttributes_eq alike.attributes_same,
    alike.trimmedText_eq]

abbrev ChildrenAlike : List Element → List Element → Prop :=
  List.Forall₂ Element.Equivalent

theorem bySignature_paired {cs ds : List Element} (alike : ChildrenAlike cs ds) :
    Keyed.Paired Element.Equivalent (bySignature cs) (bySignature ds) :=
  Keyed.index_paired (R := Element.Equivalent) (fun _ _ => signature_eq_of_alike) alike

theorem onlyIn_alike {side side' other other' : Keyed Element}
    (sides : Keyed.Paired Element.Equivalent side side')
    (others : Keyed.keys other = Keyed.keys other') :
    ChildrenAlike (onlyIn side other) (onlyIn side' other') := by
  unfold onlyIn
  rw [others]
  induction sides with
  | nil => exact .nil
  | @cons p q side side' first rest ih =>
    by_cases known : q.1 ∈ Keyed.keys other'
    · simpa [first.1, known] using ih
    · simpa [first.1, known] using And.intro first.2 ih

theorem onlyIn_eq_nil {side other : Keyed Element}
    (known : Keyed.keys side ⊆ Keyed.keys other) : onlyIn side other = [] := by
  simp only [onlyIn, List.map_eq_nil_iff, List.filter_eq_nil_iff]
  intro p inside
  simpa using known (List.mem_map_of_mem inside)

theorem changes_eq_nil_of_signatures {cs ds : List Element}
    (same : ∀ s, s ∈ cs.map signature ↔ s ∈ ds.map signature) : changes cs ds = ⟨[], []⟩ := by
  have known : ∀ s, s ∈ Keyed.keys (bySignature cs) ↔ s ∈ Keyed.keys (bySignature ds) := by
    intro s
    rw [bySignature, bySignature, Keyed.mem_keys_index_iff, Keyed.mem_keys_index_iff, same]
  simp only [changes, onlyIn_eq_nil fun s => (known s).mp, onlyIn_eq_nil fun s => (known s).mpr]

theorem changes_eq_nil {cs ds : List Element} (alike : ChildrenAlike cs ds) :
    changes cs ds = ⟨[], []⟩ := by
  apply changes_eq_nil_of_signatures
  have signatures : cs.map signature = ds.map signature := by
    induction alike with
    | nil => rfl
    | cons first _ ih => exact congrArg₂ List.cons (signature_eq_of_alike first) ih
  intro s
  rw [signatures]

/-- The same refusal, or reports of corresponding elements in the same order. -/
inductive Verdict.Alike : Verdict → Verdict → Prop where
  | invalid (reason : InvalidReason) : Alike (.invalid reason) (.invalid reason)
  | compared {c d : Changes} (additions : ChildrenAlike c.additions d.additions)
      (removals : ChildrenAlike c.removals d.removals) : Alike (.compared c) (.compared d)

theorem changes_alike {old old' new new' : List Element} (olds : ChildrenAlike old old')
    (news : ChildrenAlike new new') :
    Verdict.Alike (.compared (changes old new)) (.compared (changes old' new')) :=
  have olds := bySignature_paired olds
  have news := bySignature_paired news
  .compared (onlyIn_alike news olds.keys_eq) (onlyIn_alike olds news.keys_eq)

theorem compareLocated_alike {o o' n n' : Option Location}
    (olds : Option.Rel (Location.Alike Attributes.SamePairs) o o')
    (news : Option.Rel (Location.Alike Attributes.SamePairs) n n') :
    Verdict.Alike (compareLocated o n) (compareLocated o' n') := by
  cases olds with
  | none =>
    cases news with
    | none => exact .invalid _
    | some _ => exact .invalid _
  | some old =>
    cases news with
    | none => exact .invalid _
    | some new =>
      simp only [compareLocated, ← old.path, ← new.path]
      split
      · exact changes_alike old.element.children_alike new.element.children_alike
      · exact .invalid _

theorem compareLocated_self {o o' : Option Location}
    (alike : Option.Rel (Location.Alike Attributes.SamePairs) o o') :
    compareLocated o o' =
      if o.isSome then .compared ⟨[], []⟩ else .invalid (.tagNotFound .both) := by
  cases alike with
  | none => rfl
  | some found =>
    simp only [compareLocated, found.path, if_true, Option.isSome_some,
      changes_eq_nil found.element.children_alike]

theorem compareDocuments_alike :
    (∀ o o' n n' : Element, Element.Equivalent o o' → Element.Equivalent n n' →
      ∀ tag, Verdict.Alike (compareDocuments o n tag) (compareDocuments o' n' tag)) ∧
    (∀ o o' : Element, Element.Equivalent o o' →
      ∀ tag, compareDocuments o o' tag = .invalid (.tagNotFound .both) ∨
        compareDocuments o o' tag = .compared ⟨[], []⟩) := by
  constructor
  · intro o o' n n' olds news tag
    exact compareLocated_alike (locate_alike olds tag) (locate_alike news tag)
  · intro o o' alike tag
    rw [compareDocuments, compareLocated_self (locate_alike alike tag)]
    split
    · exact .inr rfl
    · exact .inl rfl

theorem compareDocuments_alike_swapped :
    let one : Element :=
      { tag := "a", attributes := (({} : Attributes).set "x" "1").set "y" "2", text := some " hi" }
    let two : Element :=
      { tag := "a", attributes := (({} : Attributes).set "y" "2").set "x" "1", text := some "hi\n" }
    let old : Element := { tag := "r", children := [one] }
    let old' : Element := { tag := "r", text := some " ", children := [two] }
    let new : Element := { tag := "r", children := [one, { tag := "b" }] }
    (Element.Equivalent old old' ∧ Element.Equivalent new new) ∧
      Verdict.Alike (compareDocuments old new "r") (compareDocuments old' new "r") ∧
      (compareDocuments old new "r").changeCount = 1 ∧
      (compareDocuments old old' "r" = .invalid (.tagNotFound .both) ∨
        compareDocuments old old' "r" = .compared ⟨[], []⟩) := by
  intro one two old old' new
  have items : Element.Equivalent one two :=
    .intro rfl (by unfold Attributes.SamePairs; decide) (by decide) .nil
  have olds : Element.Equivalent old old' := .intro rfl .nil (by decide) (.cons items .nil)
  have same : ∀ as, Attributes.SamePairs as as := fun as => .refl as.entries
  have news : Element.Equivalent new new :=
    .intro rfl .nil rfl (.cons (.intro rfl (same _) rfl .nil) (.cons (.intro rfl .nil rfl .nil) .nil))
  have sorted : sortAttributes one.attributes = one.attributes.entries :=
    (eq_sortAttributes (.refl _) (by decide)).symm
  have signatures : signature one ≠ signature { tag := "b" } := by
    rw [signature, sorted]
    decide
  have compared : compareDocuments old new "r" = .compared ⟨[{ tag := "b" }], []⟩ := by
    have found : locate old "r" = some ⟨old, []⟩ ∧ locate new "r" = some ⟨new, []⟩ := by
      simp [locate, visit, old, new]
    simp [compareDocuments, found, compareLocated, changes, bySignature, Keyed.index, Keyed.set,
      onlyIn, Keyed.keys, old, new, signatures, signatures.symm]
  exact ⟨⟨olds, news⟩, compareDocuments_alike.1 _ _ _ _ olds news "r", by rw [compared]; rfl,
    compareDocuments_alike.2 _ _ olds "r"⟩

end XmlDelta.Compare
