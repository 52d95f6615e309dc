import XmlDelta.Text.Split

set_option autoImplicit false

namespace XmlDelta.Text

theorem split_of_not_mem {sep : Char} {cs : List Char} (free : sep ∉ cs) : split sep cs = [cs] := by
  induction cs with
  | nil => rfl
  | cons c cs ih =>
    obtain ⟨other, free⟩ := List.ne_and_not_mem_of_not_mem_cons free
    rw [split, if_neg (Ne.symm other), ih free]

theorem split_intercalate {sep : Char} {joint : String} (single : joint.toList = [sep]) (s : String)
    (ss : List String) : split sep (String.intercalate joint (s :: ss)).toList =
      (s :: ss).flatMap fun t => split sep t.toList := by
  induction ss generalizing s with
  | nil => simp
  | cons t ss ih =>
    rw [List.flatMap_cons, String.intercalate_cons_cons, String.toList_append,
      String.toList_append, single, List.append_assoc, List.singleton_append, split_append_sep, ih]

theorem map_ofList_split_intercalate {sep : Char} {joint : String} (single : joint.toList = [sep])
    {s : String} {ss : List String} (free : ∀ t ∈ s :: ss, sep ∉ t.toList) :
    (split sep (String.intercalate joint (s :: ss)).toList).map String.ofList = s :: ss := by
  rw [split_intercalate single]
  generalize s :: ss = ts at free
  induction ts with
  | nil => rfl
  | cons t ts ih =>
    have rest := ih fun u later => free u (List.mem_cons_of_mem _ later)
    rw [List.flatMap_cons, split_of_not_mem (free t List.mem_cons_self), List.map_append, rest,
      List.map_singleton, String.ofList_toList, List.singleton_append]

theorem mem_of_mem_intercalate {c : Char} {joint : String} {ss : List String}
    (inside : c ∈ (String.intercalate joint ss).toList) :
    c ∈ joint.toList ∨ ∃ s ∈ ss, c ∈ s.toList := by
  induction ss with
  | nil => simp at inside
  | cons s ss ih =>
    cases ss with
    | nil => exact .inr ⟨s, List.mem_cons_self, by simpa using inside⟩
    | cons t ss =>
      rw [String.intercalate_cons_cons, String.toList_append, String.toList_append,
        List.mem_append, List.mem_append] at inside
      obtain (first | between) | behind := inside
      · exact .inr ⟨s, List.mem_cons_self, first⟩
      · exact .inl between
      · exact (ih behind).imp id fun ⟨u, later, own⟩ => ⟨u, List.mem_cons_of_mem _ later, own⟩

end XmlDelta.Text
