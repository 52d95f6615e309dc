import Mathlib.Data.List.Infix
import XmlDelta.Toml.Text
import XmlDelta.Toml.Writer

set_option autoImplicit false

namespace XmlDelta.Toml

theorem le_longestRun (q : Char) (current longest : Nat) (cs : List Char) :
    longest ≤ longestRun q current longest cs := by
  induction cs generalizing current longest with
  | nil => exact Nat.le_refl _
  | cons c cs ih =>
    by_cases same : c = q
    · simp only [longestRun, same, if_true]
      exact (Nat.le_max_left _ _).trans (ih _ _)
    · simp only [longestRun, same, if_false]
      exact ih _ _

theorem run_le_longestRun (q : Char) (n current longest : Nat) (after : List Char) :
    current + (n + 1) ≤ longestRun q current longest (List.replicate (n + 1) q ++ after) := by
  induction n generalizing current longest with
  | zero =>
    simp only [Nat.zero_add, List.replicate_one, List.singleton_append, longestRun, if_true]
    exact (Nat.le_max_right _ _).trans (le_longestRun q _ _ _)
  | succ n ih =>
    rw [List.replicate_succ, List.cons_append, longestRun, if_pos rfl]
    have := ih (current + 1) (max longest (current + 1))
    omega

theorem le_longestRun_of_infix {q : Char} {n : Nat} {cs : List Char}
    (run : List.replicate (n + 1) q <:+: cs) (current longest : Nat) :
    n + 1 ≤ longestRun q current longest cs := by
  obtain ⟨before, after, rfl⟩ := run
  rw [List.append_assoc]
  induction before generalizing current longest with
  | nil =>
    have := run_le_longestRun q n current longest after
    rw [List.nil_append]
    omega
  | cons c before ih =>
    by_cases same : c = q
    · simp only [List.cons_append, longestRun, same, if_true]
      exact ih _ _
    · simp only [List.cons_append, longestRun, same, if_false]
      exact ih _ _

theorem not_mem_of_longestRun {q : Char} {cs : List Char} (none : longestRun q 0 0 cs = 0) :
    q ∉ cs := by
  intro inside
  obtain ⟨before, after, rfl⟩ := List.append_of_mem inside
  have run : List.replicate (0 + 1) q <:+: before ++ q :: after := ⟨before, after, by simp⟩
  have := le_longestRun_of_infix run 0 0
  omega

def triple (q : Char) : List Char :=
  [q, q, q]

theorem not_triple_of_longestRun {q : Char} {cs : List Char} (few : longestRun q 0 0 cs ≤ 2) :
    ¬ triple q <:+: cs := by
  intro run
  have := le_longestRun_of_infix (n := 2) run 0 0
  omega

section Closing

variable {q : Char} {rest : List Char}

theorem closing?_append {cs : List Char} (few : ¬ triple q <+: cs) (behind : rest.head? ≠ some q) :
    closing? q (cs ++ (triple q ++ rest)) =
      if cs.all (· = q) then some (cs.length, rest) else none := by
  have none : (rest.take 2).takeWhile (· = q) = [] := by
    cases rest with
    | nil => rfl
    | cons d r =>
      have other : d ≠ q := fun same => behind (congrArg some same)
      rw [List.take_succ_cons, List.takeWhile_cons_of_neg (by simpa using other)]
  have one : (rest.take 1).takeWhile (· = q) = [] := by
    cases rest with
    | nil => rfl
    | cons d r =>
      have other : d ≠ q := fun same => behind (congrArg some same)
      rw [List.take_succ_cons, List.takeWhile_cons_of_neg (by simpa using other)]
  rcases cs with _ | ⟨a, _ | ⟨b, _ | ⟨c, cs⟩⟩⟩
  · simp [closing?, triple, none]
  · by_cases same : a = q
    · simp [closing?, triple, same, one]
    · simp [closing?, triple, same]
  · by_cases same : a = q ∧ b = q
    · simp [closing?, triple, same]
    · simp [closing?, triple, same]
  · have other : ¬ (a = q ∧ b = q ∧ c = q) := by
      rintro ⟨rfl, rfl, rfl⟩
      exact few ⟨cs, rfl⟩
    have some : ¬ (a = q ∧ b = q ∧ c = q ∧ ∀ d ∈ cs, d = q) := fun all =>
      other ⟨all.1, all.2.1, all.2.2.1⟩
    simp [closing?, other, some]

theorem closing?_cons_of_ne {c : Char} (other : c ≠ q) (s : List Char) :
    closing? q (c :: s) = none := by
  simp [closing?, other]

theorem eq_replicate_of_all {cs : List Char} (quotes : cs.all (· = q) = true) :
    List.replicate cs.length q = cs := by
  refine (List.eq_replicate_of_mem fun c inside => ?_).symm
  simpa using List.all_eq_true.mp quotes c inside

end Closing

end XmlDelta.Toml
