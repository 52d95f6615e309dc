import XmlDelta.Proofs.Compare.Difference
import XmlDelta.Proofs.Compare.Seams

set_option autoImplicit false

namespace XmlDelta.Compare

open XmlDelta.Document

/-- `f` is `e` with one thing changed. Attributes are pairs in whatever order they stand. -/
inductive EditedOnce : Element → Element → Prop where
  | tag {e : Element} {t : String} (other : t ≠ e.tag) : EditedOnce e { e with tag := t }
  | value {e : Element} {as : Attributes} {k v w : String} {rest : Keyed String}
      (before : e.attributes.entries.Perm ((k, v) :: rest))
      (after : as.entries.Perm ((k, w) :: rest)) (other : w ≠ v) :
      EditedOnce e { e with attributes := as }
  | added {e : Element} {as : Attributes} {k v : String}
      (after : as.entries.Perm ((k, v) :: e.attributes.entries)) :
      EditedOnce e { e with attributes := as }
  | removed {e : Element} {as : Attributes} {k v : String}
      (before : e.attributes.entries.Perm ((k, v) :: as.entries)) :
      EditedOnce e { e with attributes := as }
  | text {e : Element} {x : Option String}
      (other : Element.trimmedText { e with text := x } ≠ e.trimmedText) :
      EditedOnce e { e with text := x }

theorem editedOnce_set {e : Element} {k : String} (fresh : k ∉ Keyed.keys e.attributes.entries)
    (v : String) : EditedOnce e { e with attributes := e.attributes.set k v } := by
  apply EditedOnce.added
  simp only [Attributes.set, Keyed.set_of_not_mem fresh]
  exact List.perm_append_singleton ..

theorem joined_append (as bs : Keyed String) : joined (as ++ bs) = joined as ++ joined bs :=
  List.flatMap_append

theorem joined_cons (k v : String) (as : Keyed String) :
    joined ((k, v) :: as) = k.toList ++ '=' :: (v.toList ++ joined as) := by
  simp [joined]

theorem length_joined_eq {as bs : Keyed String} (perm : as.Perm bs) :
    (joined as).length = (joined bs).length :=
  (perm.flatMap_right _).length_eq

-- The entry of the key stays where it stands when the entries are sorted again.
theorem joined_sorted_ne {as bs : Attributes} {k v w : String} {rest : Keyed String}
    (before : as.entries.Perm ((k, v) :: rest)) (after : bs.entries.Perm ((k, w) :: rest))
    (other : w ≠ v) : joined (sortAttributes bs) ≠ joined (sortAttributes as) := by
  have inside : (k, v) ∈ sortAttributes as :=
    ((sortAttributes_perm as).trans before).mem_iff.mpr List.mem_cons_self
  obtain ⟨front, back, split⟩ := List.append_of_mem inside
  have others : (front ++ back).Perm rest := by
    have perm := (sortAttributes_perm as).trans before
    rw [split] at perm
    exact (List.perm_middle.symm.trans perm).cons_inv
  have perm : (front ++ (k, w) :: back).Perm bs.entries :=
    List.perm_middle.trans ((others.cons _).trans after.symm)
  have sorted : (front ++ (k, w) :: back).Pairwise fun a b => keyLe a b = true := by
    have before := sortAttributes_sorted as
    rw [split] at before
    simpa only [List.pairwise_append, List.pairwise_cons, List.forall_mem_cons, keyLe] using before
  rw [← eq_sortAttributes perm sorted, split, joined_append, joined_append, joined_cons,
    joined_cons]
  intro same
  have values := List.append_cancel_left (List.append_cancel_left same)
  exact other (String.toList_inj.mp (List.append_cancel_right (List.cons.inj values).2))

theorem length_joined_sorted {as bs : Attributes} {k v : String}
    (more : bs.entries.Perm ((k, v) :: as.entries)) :
    (joined (sortAttributes as)).length < (joined (sortAttributes bs)).length := by
  have longer : (sortAttributes bs).Perm ((k, v) :: sortAttributes as) :=
    (sortAttributes_perm bs).trans (more.trans ((sortAttributes_perm as).symm.cons _))
  rw [length_joined_eq longer, joined_cons]
  simp only [List.length_append, List.length_cons]
  omega

theorem signature_attributes_ne {e : Element} {as : Attributes}
    (differ : joined (sortAttributes as) ≠ joined (sortAttributes e.attributes)) :
    signature { e with attributes := as } ≠ signature e := by
  intro same
  have same := signature_eq_iff.mp same
  have rest := (List.cons.inj (List.append_cancel_left same)).2
  exact differ (List.append_cancel_right rest)

theorem EditedOnce.signature_ne {e f : Element} (edit : EditedOnce e f) :
    signature f ≠ signature e := by
  cases edit with
  | tag other =>
    intro same
    have same := signature_eq_iff.mp same
    exact other (String.toList_inj.mp (List.append_cancel_right same))
  | value before after other => exact signature_attributes_ne (joined_sorted_ne before after other)
  | added after =>
    refine signature_attributes_ne fun same => ?_
    exact Nat.ne_of_lt (length_joined_sorted after) (congrArg List.length same.symm)
  | removed before =>
    refine signature_attributes_ne fun same => ?_
    exact Nat.ne_of_lt (length_joined_sorted before) (congrArg List.length same)
  | text other =>
    intro same
    have same := signature_eq_iff.mp same
    have rest := (List.cons.inj (List.append_cancel_left same)).2
    have text := (List.cons.inj (List.append_cancel_left rest)).2
    exact other (String.toList_inj.mp text)

theorem mem_signatures_middle {before after : List Element} {e : Element} {s : String} :
    s ∈ (before ++ e :: after).map signature ↔
      s = signature e ∨ s ∈ (before ++ after).map signature := by
  simp only [List.map_append, List.map_cons, List.mem_append, List.mem_cons]
  tauto

theorem onlyIn_replaced (before after : List Element) {e f : Element}
    (differ : signature f ≠ signature e) :
    OnlyIn (before ++ f :: after) (before ++ e :: after)
      (if signature f ∈ (before ++ after).map signature then [] else [f]) := by
  split
  · rename_i known
    refine ⟨fun s => ?_, .nil, .nil, nofun⟩
    simp only [mem_signatures_middle, List.map_nil, List.not_mem_nil, false_iff]
    rintro ⟨rfl | inside, outside⟩
    · exact outside (.inr known)
    · exact outside (.inr inside)
  · rename_i fresh
    refine ⟨fun s => ?_, List.nodup_singleton _, List.pairwise_singleton .., ?_⟩
    · simp only [mem_signatures_middle, List.map_singleton, List.mem_singleton]
      constructor
      · rintro rfl
        exact ⟨.inl rfl, fun either => either.elim differ fresh⟩
      · rintro ⟨same | inside, outside⟩
        · exact same
        · exact absurd (.inr inside) outside
    · intro g inside
      obtain rfl := List.mem_singleton.mp inside
      refine ⟨before, after, rfl, fun h later same => fresh ?_⟩
      exact same ▸ List.mem_map_of_mem (List.mem_append_right _ later)

theorem changes_replaced (before after : List Element) {e f : Element}
    (differ : signature f ≠ signature e) :
    changes (before ++ e :: after) (before ++ f :: after) =
      ⟨if signature f ∈ (before ++ after).map signature then [] else [f],
        if signature e ∈ (before ++ after).map signature then [] else [e]⟩ := by
  have additions := (onlyIn_bySignature _ _).unique (onlyIn_replaced before after differ)
  have removals := (onlyIn_bySignature _ _).unique (onlyIn_replaced before after differ.symm)
  simp only [changes, additions, removals]

/-- No edit of one child goes unseen, and nothing but that child is shown. -/
theorem changes_editedOnce {xs : List Element} {i : Nat} {e f : Element} (here : xs[i]? = some e)
    (edit : EditedOnce e f) :
    signature f ≠ signature e ∧
      (changes xs (xs.set i f)).additions =
        (if signature f ∈ xs.map signature then [] else [f]) ∧
      (changes xs (xs.set i f)).removals =
        (if signature e ∈ (xs.eraseIdx i).map signature then [] else [e]) := by
  have differ := edit.signature_ne
  obtain ⟨inside, same⟩ := List.getElem?_eq_some_iff.mp here
  obtain ⟨before, after, split, rfl, edited⟩ := @List.exists_of_set _ i f xs inside
  have others : xs.eraseIdx before.length = before ++ after := by
    rw [split, List.eraseIdx_append_of_length_le (Nat.le_refl _)]
    simp
  rw [same] at split
  simp only [edited, others]
  rw [split, changes_replaced before after differ]
  simp only [mem_signatures_middle, differ, false_or, ne_eq, not_false_eq_true, true_and]

theorem changes_editedOnce_hidden :
    let e : Element := { tag := "x", attributes := ({} : Attributes).set "a" "1" }
    let f := shiftedSeam.1
    let g := shiftedSeam.2
    ([g, e][1]? = some e ∧ EditedOnce e f ∧ signature f = signature g) ∧
      signature f ≠ signature e ∧
      (changes [g, e] [g, f]).additions = [] ∧
      (changes [g, e] [g, f]).removals = [e] := by
  intro e f g
  have edit : EditedOnce e f := editedOnce_set (by decide) "2"
  have hidden : signature f = signature g := signature_shiftedSeam
  obtain ⟨differ, additions, removals⟩ := @changes_editedOnce [g, e] 1 e f rfl edit
  have known : signature f ∈ [g, e].map signature := hidden ▸ List.mem_cons_self
  have gone : signature e ∉ [g].map signature := by
    simpa [← hidden] using differ.symm
  exact ⟨⟨rfl, edit, hidden⟩, differ, additions.trans (if_pos known), removals.trans (if_neg gone)⟩

end XmlDelta.Compare
