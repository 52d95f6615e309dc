import Mathlib.Data.List.Induction
import XmlDelta.Proofs.Keyed

set_option autoImplicit false

namespace XmlDelta.Keyed

variable {α : Type} {key : α → String}

/-- No later value has the key of this one. -/
def LastOf (key : α → String) (xs : List α) (v : α) : Prop :=
  ∃ before after, xs = before ++ v :: after ∧ ∀ w ∈ after, key w ≠ key v

theorem lastOf_iff_find? {xs : List α} {v : α} :
    LastOf key xs v ↔ xs.reverse.find? (fun w => key w == key v) = some v := by
  rw [List.find?_eq_some_iff_append]
  constructor
  · rintro ⟨before, after, rfl, none⟩
    exact ⟨by simp, after.reverse, before.reverse, by simp, by simpa using none⟩
  · rintro ⟨-, after, before, split, none⟩
    refine ⟨before.reverse, after.reverse, ?_, by simpa using none⟩
    simpa using congrArg List.reverse split

theorem LastOf.of_map {β : Type} {f : α → β} {key' : β → String} (keeps : ∀ x, key' (f x) = key x)
    {xs : List α} {v : α} (last : LastOf key xs v) : LastOf key' (xs.map f) (f v) := by
  obtain ⟨before, after, rfl, none⟩ := last
  refine ⟨before.map f, after.map f, by simp, ?_⟩
  simpa [keeps] using none

theorem exists_of_lastOf_map {β : Type} {f : α → β} {key' : β → String}
    (keeps : ∀ x, key' (f x) = key x) {xs : List α} {w : β} (last : LastOf key' (xs.map f) w) :
    ∃ v, LastOf key xs v ∧ f v = w := by
  obtain ⟨before, after, split, none⟩ := last
  obtain ⟨xs, ys, rfl, rfl, rest⟩ := List.map_eq_append_iff.mp split
  obtain ⟨v, zs, rfl, rfl, rfl⟩ := List.map_eq_cons_iff.mp rest
  exact ⟨v, ⟨xs, zs, rfl, by simpa [keeps] using none⟩, rfl⟩

theorem index_append_singleton (xs : List α) (x : α) :
    index key (xs ++ [x]) = set (key x) x (index key xs) := by
  simp [index]

theorem set_map {β : Type} (f : α → β) (k : String) (v : α) (m : Keyed α) :
    set k (f v) (m.map (Prod.map id f)) = (set k v m).map (Prod.map id f) := by
  induction m with
  | nil => rfl
  | cons p m ih =>
    obtain ⟨k', w⟩ := p
    simp only [List.map_cons, Prod.map_apply, id, set, ih]
    split <;> rfl

theorem index_map {β : Type} {f : α → β} {key' : β → String} (keeps : ∀ x, key' (f x) = key x)
    (xs : List α) : index key' (xs.map f) = (index key xs).map (Prod.map id f) := by
  induction xs using List.reverseRecOn with
  | nil => rfl
  | append_singleton xs x ih =>
    rw [List.map_append, List.map_singleton, index_append_singleton, ih, keeps, set_map,
      index_append_singleton]

theorem values_index_map {β : Type} {f : α → β} {key' : β → String}
    (keeps : ∀ x, key' (f x) = key x) (xs : List α) :
    values (index key' (xs.map f)) = (values (index key xs)).map f := by
  rw [index_map keeps, values, List.map_map, values, List.map_map]
  rfl

theorem nodup_keys_index (xs : List α) : (keys (index key xs)).Nodup := by
  induction xs using List.reverseRecOn with
  | nil => exact List.nodup_nil
  | append_singleton xs x ih =>
    rw [index_append_singleton]
    exact nodup_keys_set _ _ ih

theorem eraseDups_append_singleton (ks : List String) (k : String) :
    (ks ++ [k]).eraseDups = if k ∈ ks then ks.eraseDups else ks.eraseDups ++ [k] := by
  simp only [List.eraseDups_append, List.removeAll]
  split <;> simp [List.eraseDups_cons, *]

theorem eraseDups_append_self (ks ls : List String) :
    (ks ++ ls ++ ls).eraseDups = (ks ++ ls).eraseDups := by
  have known : ls.removeAll (ks ++ ls) = [] := by
    simp only [List.removeAll, List.filter_eq_nil_iff]
    intro l inside
    simp [inside]
  rw [List.eraseDups_append, known, List.eraseDups_nil, List.append_nil]

theorem keys_index (xs : List α) : keys (index key xs) = (xs.map key).eraseDups := by
  induction xs using List.reverseRecOn with
  | nil => rfl
  | append_singleton xs x ih =>
    simp only [index_append_singleton, keys_set, ih, List.map_append, List.map_singleton,
      eraseDups_append_singleton, List.mem_eraseDups]

theorem mem_keys_index_iff {k : String} {xs : List α} :
    k ∈ keys (index key xs) ↔ k ∈ xs.map key := by
  rw [keys_index, List.mem_eraseDups]

theorem pairwise_keys_index (xs : List α) :
    (keys (index key xs)).Pairwise fun k l => (xs.map key).idxOf k < (xs.map key).idxOf l := by
  induction xs using List.reverseRecOn with
  | nil => exact .nil
  | append_singleton xs x ih =>
    have early : ∀ k ∈ keys (index key xs),
        ((xs ++ [x]).map key).idxOf k = (xs.map key).idxOf k := by
      intro k inside
      rw [List.map_append, List.idxOf_append_of_mem (mem_keys_index_iff.mp inside)]
    have still : (keys (index key xs)).Pairwise fun k l =>
        ((xs ++ [x]).map key).idxOf k < ((xs ++ [x]).map key).idxOf l :=
      ih.imp_of_mem fun first second before => by rwa [early _ first, early _ second]
    rw [index_append_singleton, keys_set]
    split
    · exact still
    · rename_i fresh
      refine List.pairwise_append.mpr ⟨still, List.pairwise_singleton .., ?_⟩
      intro k inside l last
      have inside' := mem_keys_index_iff.mp inside
      have fresh' := mt mem_keys_index_iff.mpr fresh
      rw [List.mem_singleton.mp last, early k inside, List.map_append,
        List.idxOf_append_of_notMem fresh']
      exact Nat.lt_add_right _ (List.idxOf_lt_length_iff.mpr inside')

theorem mem_set {k : String} {v : α} {m : Keyed α} {p : String × α} (inside : p ∈ set k v m) :
    p = (k, v) ∨ p ∈ m := by
  induction m with
  | nil => exact .inl (List.mem_singleton.mp inside)
  | cons q m ih =>
    obtain ⟨k', v'⟩ := q
    rw [set] at inside
    split at inside
    · rcases List.mem_cons.mp inside with same | inside
      · exact .inl same
      · exact .inr (List.mem_cons_of_mem _ inside)
    · rcases List.mem_cons.mp inside with same | inside
      · exact .inr (same ▸ List.mem_cons_self)
      · exact (ih inside).imp_right (List.mem_cons_of_mem _)

theorem key_of_mem_index {xs : List α} {p : String × α} (inside : p ∈ index key xs) :
    key p.2 = p.1 := by
  induction xs using List.reverseRecOn with
  | nil => cases inside
  | append_singleton xs x ih =>
    rw [index_append_singleton] at inside
    rcases mem_set inside with rfl | inside
    · rfl
    · exact ih inside

theorem get?_eq_some_iff {m : Keyed α} (distinct : (keys m).Nodup) {k : String} {v : α} :
    get? k m = some v ↔ (k, v) ∈ m := by
  induction m with
  | nil => simp [get?]
  | cons q m ih =>
    obtain ⟨k', v'⟩ := q
    obtain ⟨fresh, distinct⟩ := List.nodup_cons.mp distinct
    by_cases hit : k' = k
    · subst hit
      have absent : (k', v) ∉ m := fun inside => fresh (List.mem_map.mpr ⟨_, inside, rfl⟩)
      simp [get?, absent, eq_comm]
    · simp [get?, hit, ih distinct, Ne.symm hit]

theorem get?_index (k : String) (xs : List α) :
    get? k (index key xs) = xs.reverse.find? fun x => key x == k := by
  induction xs using List.reverseRecOn with
  | nil => rfl
  | append_singleton xs x ih =>
    rw [index_append_singleton, List.reverse_append, List.reverse_singleton,
      List.singleton_append, List.find?_cons]
    by_cases hit : key x = k
    · subst hit
      simp [get?_set_self]
    · simp only [get?_set_of_ne _ _ hit, ih, beq_false_of_ne hit]

theorem find?_values_index (k : String) (xs : List α) :
    (values (index key xs)).find? (fun x => key x == k) =
      xs.reverse.find? fun x => key x == k := by
  rw [← get?_index]
  have own : ∀ p ∈ index key xs, key p.2 = p.1 := fun _ => key_of_mem_index
  generalize index key xs = m at own
  induction m with
  | nil => rfl
  | cons p m ih =>
    obtain ⟨k', v⟩ := p
    have first : key v = k' := own (k', v) List.mem_cons_self
    have rest := ih fun p inside => own p (List.mem_cons_of_mem _ inside)
    rw [values, List.map_cons, List.find?_cons, get?, ← values, rest, first]
    by_cases hit : k' = k
    · simp only [hit, beq_self_eq_true, if_true]
    · simp only [hit, beq_false_of_ne hit, if_false]

theorem mem_values_index_iff {xs : List α} {v : α} :
    v ∈ values (index key xs) ↔ LastOf key xs v := by
  rw [lastOf_iff_find?, ← get?_index, get?_eq_some_iff (nodup_keys_index xs)]
  constructor
  · intro inside
    obtain ⟨p, entry, rfl⟩ := List.mem_map.mp inside
    rw [key_of_mem_index entry]
    exact entry
  · exact fun inside => List.mem_map_of_mem (f := Prod.snd) inside

theorem map_key_values_index (xs : List α) :
    (values (index key xs)).map key = keys (index key xs) := by
  rw [values, List.map_map, keys]
  exact List.map_congr_left fun _ inside => key_of_mem_index inside

theorem values_index_eq_iff {xs : List α} :
    values (index key xs) = xs ↔ (xs.map key).Nodup := by
  constructor
  · intro same
    have distinct : (keys (index key xs)).Nodup := nodup_keys_index xs
    rwa [← map_key_values_index, same] at distinct
  · intro distinct
    induction xs using List.reverseRecOn with
    | nil => rfl
    | append_singleton xs x ih =>
      rw [List.map_append, List.nodup_append] at distinct
      obtain ⟨distinct, -, apart⟩ := distinct
      have same := ih distinct
      have fresh : key x ∉ keys (index key xs) := by
        rw [← map_key_values_index, same]
        exact fun inside => apart _ inside _ (by simp) rfl
      rw [index_append_singleton, set_of_not_mem fresh, values, List.map_append, ← values, same]
      rfl

theorem values_eq_filterMap {m : Keyed α} (distinct : (keys m).Nodup) :
    values m = (keys m).filterMap fun k => get? k m := by
  have found : ∀ p ∈ m, get? p.1 m = some p.2 := fun p inside =>
    (get?_eq_some_iff distinct).mpr inside
  rw [keys, List.filterMap_map, values, ← List.filterMap_eq_map]
  exact List.filterMap_congr fun p inside => (found p inside).symm

theorem values_index (xs : List α) :
    values (index key xs) =
      (xs.map key).eraseDups.filterMap fun k => xs.reverse.find? fun x => key x == k := by
  rw [values_eq_filterMap (nodup_keys_index xs), keys_index]
  simp only [get?_index]

theorem index_eq_map_values (xs : List α) :
    index key xs = (values (index key xs)).map fun v => (key v, v) := by
  have own : ∀ p ∈ index key xs, (key p.2, p.2) = p := fun p inside =>
    congrArg (·, p.2) (key_of_mem_index inside)
  rw [values, List.map_map]
  exact (List.map_id _).symm.trans (List.map_congr_left fun p inside => (own p inside).symm)

theorem index_append (xs ys : List α) :
    index key (xs ++ ys) = ys.foldl (fun m y => set (key y) y m) (index key xs) :=
  List.foldl_append

theorem index_values_append (xs ys : List α) :
    index key (values (index key xs) ++ ys) = index key (xs ++ ys) := by
  have distinct : ((values (index key xs)).map key).Nodup := by
    rw [map_key_values_index]
    exact nodup_keys_index xs
  have kept : index key (values (index key xs)) = index key xs := by
    rw [index_eq_map_values (values (index key xs)), values_index_eq_iff.mpr distinct]
    exact (index_eq_map_values xs).symm
  rw [index_append, kept, index_append]

theorem index_append_self (xs ys : List α) :
    index key (xs ++ ys ++ ys) = index key (xs ++ ys) := by
  have last : ∀ p : α → Bool, (xs ++ ys ++ ys).reverse.find? p = (xs ++ ys).reverse.find? p := by
    intro p
    simp only [List.reverse_append, List.find?_append, ← Option.or_assoc, Option.or_self]
  have values : values (index key (xs ++ ys ++ ys)) = values (index key (xs ++ ys)) := by
    simp only [values_index, last, List.map_append, eraseDups_append_self]
  rw [index_eq_map_values, values, ← index_eq_map_values]

end XmlDelta.Keyed
