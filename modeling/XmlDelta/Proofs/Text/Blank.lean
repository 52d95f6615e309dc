import Mathlib.Data.List.TakeWhile
import XmlDelta.Text.Blank

set_option autoImplicit false

namespace XmlDelta.Text

theorem dropWhile_isBlank_append {pre : List Char} (blank : pre.all isBlank = true)
    (cs : List Char) : (pre ++ cs).dropWhile isBlank = cs.dropWhile isBlank :=
  List.dropWhile_append_of_pos (List.all_eq_true.mp blank)

theorem trimChars_append_left {pre : List Char} (blank : pre.all isBlank = true)
    (cs : List Char) : trimChars (pre ++ cs) = trimChars cs := by
  rw [trimChars, dropWhile_isBlank_append blank, trimChars]

theorem trimChars_append_right (cs : List Char) {post : List Char}
    (blank : post.all isBlank = true) : trimChars (cs ++ post) = trimChars cs := by
  by_cases inside : cs.all isBlank = true
  · have whole : (cs ++ post).all isBlank = true := by
      rw [List.all_append, inside, blank]
      rfl
    rw [trimChars_eq_nil whole, trimChars_eq_nil inside]
  · -- Something stays, so the front is dropped from `cs` alone
    have stays : (cs.dropWhile isBlank).isEmpty = false := by
      rw [List.isEmpty_eq_false_iff, ne_eq, List.dropWhile_eq_nil_iff]
      simpa using inside
    have back : post.reverse.all isBlank = true := by
      rw [List.all_reverse]
      exact blank
    rw [trimChars, List.dropWhile_append, stays, if_neg Bool.false_ne_true, List.reverse_append,
      dropWhile_isBlank_append back, trimChars]

theorem exists_trimChars_split (cs : List Char) :
    ∃ pre post, cs = pre ++ trimChars cs ++ post ∧ pre.all isBlank = true ∧
      post.all isBlank = true := by
  refine ⟨cs.takeWhile isBlank, ((cs.dropWhile isBlank).reverse.takeWhile isBlank).reverse,
    ?_, List.all_takeWhile, ?_⟩
  · rw [trimChars, List.append_assoc, ← List.reverse_append, List.takeWhile_append_dropWhile,
      List.reverse_reverse, List.takeWhile_append_dropWhile]
  · rw [List.all_reverse]
    exact List.all_takeWhile

theorem trimChars_eq_nil_iff {cs : List Char} : trimChars cs = [] ↔ cs.all isBlank = true := by
  refine ⟨fun nothing => ?_, trimChars_eq_nil⟩
  obtain ⟨pre, post, split, front, back⟩ := exists_trimChars_split cs
  rw [split, nothing, List.append_nil, List.all_append, front, back]
  rfl

structure Trimmed (cs : List Char) : Prop where
  front : ∀ c ∈ cs.head?, isBlank c = false
  back : ∀ c ∈ cs.getLast?, isBlank c = false

theorem head?_dropWhile_isBlank (cs : List Char) :
    ∀ c ∈ (cs.dropWhile isBlank).head?, isBlank c = false := by
  intro c first
  have solid := List.head?_dropWhile_not isBlank cs
  rwa [Option.mem_def.mp first] at solid

theorem trimmed_trimChars (cs : List Char) : Trimmed (trimChars cs) := by
  have front := head?_dropWhile_isBlank cs
  rw [trimChars]
  generalize cs.dropWhile isBlank = ds at front
  constructor
  · -- What is dropped at the back leaves the first character where it is
    obtain ⟨post, split⟩ := List.dropWhile_suffix isBlank (l := ds.reverse)
    have kept : ds = (ds.reverse.dropWhile isBlank).reverse ++ post.reverse := by
      rw [← List.reverse_append, split, List.reverse_reverse]
    intro c first
    refine front c ?_
    rw [kept, List.head?_append, Option.mem_def.mp first]
    rfl
  · rw [List.getLast?_reverse]
    exact head?_dropWhile_isBlank ds.reverse

theorem dropWhile_isBlank_of_head? {cs : List Char} (front : ∀ c ∈ cs.head?, isBlank c = false) :
    cs.dropWhile isBlank = cs := by
  cases cs with
  | nil => rfl
  | cons c cs => exact List.dropWhile_cons_of_neg (by simp [front c rfl])

theorem Trimmed.trimChars_eq {cs : List Char} (trimmed : Trimmed cs) : trimChars cs = cs := by
  have back : ∀ c ∈ cs.reverse.head?, isBlank c = false := by
    rw [List.head?_reverse]
    exact trimmed.back
  rw [trimChars, dropWhile_isBlank_of_head? trimmed.front, dropWhile_isBlank_of_head? back,
    List.reverse_reverse]

theorem trimChars_trimChars (cs : List Char) : trimChars (trimChars cs) = trimChars cs :=
  (trimmed_trimChars cs).trimChars_eq

theorem mem_of_mem_trimChars {c : Char} {cs : List Char} (inside : c ∈ trimChars cs) :
    c ∈ cs := by
  obtain ⟨pre, post, split, -, -⟩ := exists_trimChars_split cs
  rw [split]
  simp [inside]

end XmlDelta.Text
