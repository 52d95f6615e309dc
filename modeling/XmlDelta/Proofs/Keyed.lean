import Mathlib.Data.List.Forall2
import XmlDelta.Keyed

set_option autoImplicit false

namespace XmlDelta.Keyed

variable {α : Type} {R : α → α → Prop}

theorem set_of_not_mem {k : String} {m : Keyed α} (absent : k ∉ keys m) (v : α) :
    set k v m = m ++ [(k, v)] := by
  induction m with
  | nil => rfl
  | cons p m ih =>
    simp only [keys, List.map_cons, List.mem_cons, not_or] at absent
    rw [set, if_neg (Ne.symm absent.1), ih absent.2]
    rfl

def Paired (R : α → α → Prop) : Keyed α → Keyed α → Prop :=
  List.Forall₂ fun p q => p.1 = q.1 ∧ R p.2 q.2

theorem Paired.keys_eq {m n : Keyed α} (paired : Paired R m n) : keys m = keys n := by
  induction paired with
  | nil => rfl
  | cons first _ ih => exact congrArg₂ List.cons first.1 ih

theorem Paired.set {m n : Keyed α} (paired : Paired R m n) (k : String) {v w : α}
    (related : R v w) : Paired R (set k v m) (set k w n) := by
  induction paired with
  | nil => exact .cons ⟨rfl, related⟩ .nil
  | @cons p q m n first rest ih =>
    obtain ⟨k', x⟩ := p
    obtain ⟨l, y⟩ := q
    obtain ⟨rfl, values⟩ := first
    by_cases hit : k' = k
    · simp only [Keyed.set, hit, if_true]
      exact .cons ⟨rfl, related⟩ rest
    · simp only [Keyed.set, hit, if_false]
      exact .cons ⟨rfl, values⟩ ih

theorem index_paired {key : α → String} (respects : ∀ x y, R x y → key x = key y)
    {xs ys : List α} (related : List.Forall₂ R xs ys) :
    Paired R (index key xs) (index key ys) := by
  have fold : ∀ m n, Paired R m n →
      Paired R (xs.foldl (fun m x => Keyed.set (key x) x m) m)
        (ys.foldl (fun m x => Keyed.set (key x) x m) n) := by
    induction related with
    | nil => exact fun _ _ paired => paired
    | @cons x y xs ys first rest ih =>
      intro m n paired
      simp only [List.foldl_cons, respects x y first]
      exact ih _ _ (paired.set _ first)
  exact fold [] [] .nil

end XmlDelta.Keyed
