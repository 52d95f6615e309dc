import XmlDelta.Proofs.Compare.Noise

set_option autoImplicit false

namespace XmlDelta.Compare

open XmlDelta.Document

/-- No part before the text holds a `|`, and no key or value an `=`. -/
structure Delimited (e : Element) : Prop where
  tag : '|' ∉ e.tag.toList
  keys : ∀ a ∈ e.attributes.entries, '|' ∉ a.1.toList ∧ '=' ∉ a.1.toList
  values : ∀ a ∈ e.attributes.entries, '|' ∉ a.2.toList ∧ '=' ∉ a.2.toList

def seamsFrom (v : String) : Keyed String → List String
  | [] => [v]
  | (k, w) :: r => (v ++ k) :: seamsFrom w r

def seams (as : Attributes) : List String :=
  seamsFrom "" (sortAttributes as)

def joined (as : Keyed String) : List Char :=
  as.flatMap fun a => a.1.toList ++ '=' :: a.2.toList

theorem signature_toList (e : Element) :
    (signature e).toList = e.tag.toList ++ '|' ::
      (joined (sortAttributes e.attributes) ++ '|' :: e.trimmedText.toList) := by
  simp [signature, joined, List.flatMap_map]

theorem signature_eq_iff {e f : Element} :
    signature e = signature f ↔
      e.tag.toList ++ '|' :: (joined (sortAttributes e.attributes) ++ '|' :: e.trimmedText.toList) =
        f.tag.toList ++ '|' ::
          (joined (sortAttributes f.attributes) ++ '|' :: f.trimmedText.toList) := by
  simp only [← String.toList_inj, signature_toList]

theorem splitOn_inj {sep : Char} {xs ys : List Char} (same : xs.splitOn sep = ys.splitOn sep) :
    xs = ys := by
  have back (cs : List Char) : [sep].intercalate (cs.splitOn sep) = cs :=
    List.intercalate_splitOn sep
  rw [← back xs, same, back ys]

theorem append_sep_inj {sep : Char} {xs ys us vs : List Char} (inLeft : sep ∉ xs)
    (inRight : sep ∉ ys) (same : xs ++ sep :: us = ys ++ sep :: vs) : xs = ys ∧ us = vs := by
  have parts := congrArg (List.splitOn sep) same
  rw [List.splitOn_append_cons_self_of_not_mem inLeft,
    List.splitOn_append_cons_self_of_not_mem inRight, List.cons.injEq] at parts
  exact ⟨parts.1, splitOn_inj parts.2⟩

theorem not_mem_joined {sep : Char} {as : Keyed String} (other : sep ≠ '=')
    (absent : ∀ a ∈ as, sep ∉ a.1.toList ∧ sep ∉ a.2.toList) : sep ∉ joined as := by
  simp only [joined, List.mem_flatMap, List.mem_append, List.mem_cons, not_exists, not_and,
    not_or]
  exact fun a inside => ⟨(absent a inside).1, other, (absent a inside).2⟩

theorem splitOn_joined (v : String) (as : Keyed String) (absentBefore : '=' ∉ v.toList)
    (absent : ∀ a ∈ as, '=' ∉ a.1.toList ∧ '=' ∉ a.2.toList) :
    (v.toList ++ joined as).splitOn '=' = (seamsFrom v as).map String.toList := by
  induction as generalizing v with
  | nil => simpa [joined, seamsFrom] using List.splitOn_eq_singleton absentBefore
  | cons a as ih =>
    obtain ⟨k, w⟩ := a
    obtain ⟨inKey, inValue⟩ := absent (k, w) (by simp)
    have bare : '=' ∉ v.toList ++ k.toList := by simp [absentBefore, inKey]
    have shape : v.toList ++ joined ((k, w) :: as) =
        (v.toList ++ k.toList) ++ '=' :: (w.toList ++ joined as) := by
      simp [joined]
    rw [shape, List.splitOn_append_cons_self_of_not_mem bare,
      ih w inValue fun a inside => absent a (by simp [inside])]
    simp [seamsFrom]

theorem joined_eq_iff {as bs : Keyed String}
    (inLeft : ∀ a ∈ as, '=' ∉ a.1.toList ∧ '=' ∉ a.2.toList)
    (inRight : ∀ b ∈ bs, '=' ∉ b.1.toList ∧ '=' ∉ b.2.toList) :
    joined as = joined bs ↔ seamsFrom "" as = seamsFrom "" bs := by
  have left := splitOn_joined "" as (by simp) inLeft
  have right := splitOn_joined "" bs (by simp) inRight
  simp only [String.toList_empty, List.nil_append] at left right
  constructor
  · intro same
    rw [same, right] at left
    exact (List.map_injective_iff.mpr fun _ _ => String.toList_inj.mp) left.symm
  · intro same
    exact splitOn_inj (left.trans (same ▸ right.symm))

theorem seamsFrom_inj {v w : String} {as bs : Keyed String}
    (keys : Keyed.keys as = Keyed.keys bs) (same : seamsFrom v as = seamsFrom w bs) :
    v = w ∧ as = bs := by
  induction as generalizing v w bs with
  | nil =>
    obtain rfl : bs = [] := List.map_eq_nil_iff.mp keys.symm
    exact ⟨List.singleton_inj.mp same, rfl⟩
  | cons a as ih =>
    rcases bs with _ | ⟨b, bs⟩
    · simp [Keyed.keys] at keys
    · obtain ⟨k, x⟩ := a
      obtain ⟨l, y⟩ := b
      simp only [Keyed.keys, List.map_cons, List.cons.injEq] at keys
      simp only [seamsFrom, List.cons.injEq] at same
      obtain ⟨rfl, keys⟩ := keys
      obtain ⟨rfl, rfl⟩ := ih keys same.2
      exact ⟨(String.append_left_inj k).mp same.1, rfl⟩

theorem keys_sortAttributes_eq {as bs : Attributes}
    (keys : (Keyed.keys as.entries).Perm (Keyed.keys bs.entries)) :
    Keyed.keys (sortAttributes as) = Keyed.keys (sortAttributes bs) := by
  have sorted (cs : Attributes) : (Keyed.keys (sortAttributes cs)).Pairwise (· ≤ ·) := by
    rw [Keyed.keys, List.pairwise_map]
    exact (sortAttributes_sorted cs).imp of_decide_eq_true
  have perm (cs : Attributes) : (Keyed.keys (sortAttributes cs)).Perm (Keyed.keys cs.entries) :=
    (sortAttributes_perm cs).map Prod.fst
  exact ((perm as).trans (keys.trans (perm bs).symm)).eq_of_pairwise
    (fun _ _ _ _ => String.le_antisymm) (sorted as) (sorted bs)

theorem samePairs_iff_of_seams_eq {as bs : Attributes} (same : seams as = seams bs) :
    as.SamePairs bs ↔ (Keyed.keys as.entries).Perm (Keyed.keys bs.entries) := by
  constructor
  · exact fun pairs => pairs.map Prod.fst
  · intro keys
    have sorted := (seamsFrom_inj (keys_sortAttributes_eq keys) same).2
    exact (sortAttributes_perm as).symm.trans (sorted ▸ sortAttributes_perm bs)

theorem Delimited.sorted {e : Element} (delimited : Delimited e) (sep : Char)
    (separator : sep = '|' ∨ sep = '=') :
    ∀ a ∈ sortAttributes e.attributes, sep ∉ a.1.toList ∧ sep ∉ a.2.toList := by
  intro a inside
  have inside := (sortAttributes_perm e.attributes).subset inside
  rcases separator with rfl | rfl
  · exact ⟨(delimited.keys a inside).1, (delimited.values a inside).1⟩
  · exact ⟨(delimited.keys a inside).2, (delimited.values a inside).2⟩

theorem signature_eq_iff_seams {e f : Element} (left : Delimited e) (right : Delimited f) :
    signature e = signature f ↔
      e.tag = f.tag ∧ seams e.attributes = seams f.attributes ∧ e.trimmedText = f.trimmedText := by
  have attributes := joined_eq_iff (left.sorted '=' (.inr rfl)) (right.sorted '=' (.inr rfl))
  rw [signature_eq_iff]
  constructor
  · intro same
    obtain ⟨tag, rest⟩ := append_sep_inj left.tag right.tag same
    obtain ⟨entries, text⟩ := append_sep_inj
      (not_mem_joined (by decide) (left.sorted '|' (.inl rfl)))
      (not_mem_joined (by decide) (right.sorted '|' (.inl rfl))) rest
    exact ⟨String.toList_inj.mp tag, attributes.mp entries, String.toList_inj.mp text⟩
  · rintro ⟨tag, entries, text⟩
    rw [tag, attributes.mpr entries, text]

/-- Equal signatures hide a difference exactly when the seams agree and the keys do not. -/
theorem signature_collision_iff {e f : Element} (left : Delimited e) (right : Delimited f) :
    (signature e = signature f ∧ ¬ (e.tag = f.tag ∧ e.attributes.SamePairs f.attributes ∧
        e.trimmedText = f.trimmedText)) ↔
      e.tag = f.tag ∧ e.trimmedText = f.trimmedText ∧ seams e.attributes = seams f.attributes ∧
        ¬ (Keyed.keys e.attributes.entries).Perm (Keyed.keys f.attributes.entries) := by
  rw [signature_eq_iff_seams left right]
  constructor
  · rintro ⟨⟨tag, entries, text⟩, differ⟩
    refine ⟨tag, text, entries, fun keys => differ ⟨tag, ?_, text⟩⟩
    exact (samePairs_iff_of_seams_eq entries).mpr keys
  · rintro ⟨tag, text, entries, keys⟩
    refine ⟨⟨tag, entries, text⟩, fun same => keys ?_⟩
    exact (samePairs_iff_of_seams_eq entries).mp same.2.1

def shiftedSeam : Element × Element :=
  ({ tag := "x", attributes := (({} : Attributes).set "a" "1").set "bc" "2" },
    { tag := "x", attributes := (({} : Attributes).set "a" "1b").set "c" "2" })

theorem shiftedSeam_delimited : Delimited shiftedSeam.1 ∧ Delimited shiftedSeam.2 :=
  ⟨⟨by decide, by decide, by decide⟩, ⟨by decide, by decide, by decide⟩⟩

theorem sortAttributes_shiftedSeam :
    sortAttributes shiftedSeam.1.attributes = [("a", "1"), ("bc", "2")] ∧
      sortAttributes shiftedSeam.2.attributes = [("a", "1b"), ("c", "2")] :=
  ⟨(eq_sortAttributes (.refl _) (by decide)).symm, (eq_sortAttributes (.refl _) (by decide)).symm⟩

theorem signature_shiftedSeam : signature shiftedSeam.1 = signature shiftedSeam.2 := by
  rw [signature, signature, sortAttributes_shiftedSeam.1, sortAttributes_shiftedSeam.2]
  decide

theorem not_samePairs_shiftedSeam :
    ¬ shiftedSeam.1.attributes.SamePairs shiftedSeam.2.attributes := by
  intro same
  have inside := same.subset (a := ("a", "1")) (by decide)
  revert inside
  decide

theorem signature_not_injective :
    ¬ ∀ e f : Element, Delimited e → Delimited f → signature e = signature f →
      e.tag = f.tag ∧ e.attributes.SamePairs f.attributes ∧ e.trimmedText = f.trimmedText := by
  intro injective
  have same := injective shiftedSeam.1 shiftedSeam.2 shiftedSeam_delimited.1
    shiftedSeam_delimited.2 signature_shiftedSeam
  exact not_samePairs_shiftedSeam same.2.1

theorem signature_collision_shiftedSeam :
    (Delimited shiftedSeam.1 ∧ Delimited shiftedSeam.2) ∧
      seams shiftedSeam.1.attributes = ["a", "1bc", "2"] ∧
      shiftedSeam.1.tag = shiftedSeam.2.tag ∧
      shiftedSeam.1.trimmedText = shiftedSeam.2.trimmedText ∧
      seams shiftedSeam.1.attributes = seams shiftedSeam.2.attributes ∧
      ¬ (Keyed.keys shiftedSeam.1.attributes.entries).Perm
        (Keyed.keys shiftedSeam.2.attributes.entries) := by
  have parts : seams shiftedSeam.1.attributes = ["a", "1bc", "2"] := by
    rw [seams, sortAttributes_shiftedSeam.1]
    rfl
  refine ⟨shiftedSeam_delimited, parts, ?_⟩
  refine (signature_collision_iff shiftedSeam_delimited.1 shiftedSeam_delimited.2).mp
    ⟨signature_shiftedSeam, fun same => not_samePairs_shiftedSeam same.2.1⟩

end XmlDelta.Compare
