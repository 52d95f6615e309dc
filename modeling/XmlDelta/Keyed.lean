set_option autoImplicit false

namespace XmlDelta

abbrev Keyed (α : Type) := List (String × α)

namespace Keyed

variable {α : Type}

def set (k : String) (v : α) : Keyed α → Keyed α
  | [] => [(k, v)]
  | (k', v') :: r => if k' = k then (k, v) :: r else (k', v') :: set k v r

def get? (k : String) : Keyed α → Option α
  | [] => none
  | (k', v') :: r => if k' = k then some v' else get? k r

def keys (m : Keyed α) : List String :=
  m.map Prod.fst

def values (m : Keyed α) : List α :=
  m.map Prod.snd

def index (key : α → String) (xs : List α) : Keyed α :=
  xs.foldl (fun m x => set (key x) x m) []

theorem get?_set_self (k : String) (v : α) (m : Keyed α) : get? k (set k v m) = some v := by
  induction m with
  | nil => simp [set, get?]
  | cons p r ih =>
    obtain ⟨k', v'⟩ := p
    by_cases h : k' = k <;> simp [set, get?, h, ih]

theorem get?_set_of_ne {k l : String} (v : α) (m : Keyed α) (h : k ≠ l) :
    get? l (set k v m) = get? l m := by
  induction m with
  | nil => simp [set, get?, h]
  | cons p r ih =>
    obtain ⟨k', v'⟩ := p
    by_cases hk : k' = k
    · subst hk
      simp [set, get?, h]
    · by_cases hl : k' = l
      · subst hl
        simp [set, get?, hk]
      · simp [set, get?, hk, hl, ih]

theorem keys_set (k : String) (v : α) (m : Keyed α) :
    keys (set k v m) = if k ∈ keys m then keys m else keys m ++ [k] := by
  induction m with
  | nil => simp [set, keys]
  | cons p r ih =>
    obtain ⟨k', v'⟩ := p
    simp only [keys] at ih
    by_cases h : k' = k
    · simp [set, keys, h]
    · have h' : k ≠ k' := fun e => h e.symm
      by_cases hm : k ∈ List.map Prod.fst r
      · simp [set, keys, h, h', ih, hm]
      · simp [set, keys, h, h', ih, hm]

theorem nodup_keys_set (k : String) (v : α) {m : Keyed α} (h : (keys m).Nodup) :
    (keys (set k v m)).Nodup := by
  rw [keys_set]
  split
  · exact h
  · rename_i absent
    refine List.nodup_append.mpr ⟨h, by simp, ?_⟩
    intro a ha b hb
    rw [List.mem_singleton.mp hb]
    intro same
    exact absent (same ▸ ha)

end Keyed

end XmlDelta
