import Mathlib.Data.List.Basic
import XmlDelta.Compare.Job

set_option autoImplicit false

namespace XmlDelta.Compare

namespace Job

def SameFiles (j k : Job) : Prop :=
  j.oldFile = k.oldFile ∧ j.newFile = k.newFile

/-- The arrow of `k` stands further on than that of `j`: behind it, or overlapping its last blank.
-/
def ArrowMoved (j k : Job) : Prop :=
  (∃ between, k.oldFile = j.oldFile ++ " -> " ++ between ∧
      j.newFile = between ++ " -> " ++ k.newFile) ∨
    (k.oldFile = j.oldFile ++ " ->" ∧ j.newFile = "-> " ++ k.newFile)

theorem label_eq_of_arrowMoved {j k : Job} (moved : ArrowMoved j k) : j.label = k.label := by
  rcases moved with ⟨between, old, new⟩ | ⟨old, new⟩
  · simp only [label, old, new, String.append_assoc]
  · simp only [label, old, new, String.append_assoc]
    rfl

def arrow : List Char := [' ', '-', '>', ' ']

theorem toList_label (j : Job) : j.label.toList = j.oldFile.toList ++ arrow ++ j.newFile.toList := by
  simp [label, arrow]

theorem arrow_append_eq {new new' extra : List Char}
    (same : arrow ++ new = extra ++ (arrow ++ new')) :
    (extra = [] ∧ new = new') ∨ (extra = [' ', '-', '>'] ∧ new = '-' :: '>' :: ' ' :: new') ∨
      ∃ between, extra = arrow ++ between ∧ new = between ++ arrow ++ new' := by
  match extra with
  | [] => exact .inl ⟨rfl, by simpa using same⟩
  | [a] => simp [arrow] at same
  | [a, b] => simp [arrow] at same
  | [a, b, c] =>
    simp only [arrow, List.cons_append, List.nil_append, List.cons.injEq] at same
    obtain ⟨rfl, rfl, rfl, -, rfl⟩ := same
    exact .inr (.inl ⟨rfl, rfl⟩)
  | a :: b :: c :: d :: between =>
    simp only [arrow, List.cons_append, List.nil_append, List.cons.injEq] at same
    obtain ⟨rfl, rfl, rfl, rfl, rfl⟩ := same
    exact .inr (.inr ⟨between, rfl, by simp [arrow]⟩)

theorem sameFiles_or_arrowMoved {j k : Job} {extra : List Char}
    (old : k.oldFile.toList = j.oldFile.toList ++ extra)
    (same : arrow ++ j.newFile.toList = extra ++ (arrow ++ k.newFile.toList)) :
    SameFiles j k ∨ ArrowMoved j k := by
  rcases arrow_append_eq same with ⟨rfl, new⟩ | ⟨rfl, new⟩ | ⟨between, rfl, new⟩
  · rw [List.append_nil] at old
    exact .inl ⟨String.toList_inj.mp old.symm, String.toList_inj.mp new⟩
  · refine .inr (.inr ⟨String.toList_inj.mp ?_, String.toList_inj.mp ?_⟩)
    · simpa using old
    · simpa using new
  · refine .inr (.inl ⟨String.ofList between, String.toList_inj.mp ?_, String.toList_inj.mp ?_⟩)
    · simpa [arrow] using old
    · simpa [arrow] using new

theorem label_eq_iff (j k : Job) :
    j.label = k.label ↔ SameFiles j k ∨ ArrowMoved j k ∨ ArrowMoved k j := by
  constructor
  · intro same
    have same := congrArg String.toList same
    simp only [toList_label, List.append_assoc] at same
    rcases List.append_eq_append_iff.mp same with ⟨extra, old, new⟩ | ⟨extra, old, new⟩
    · exact (sameFiles_or_arrowMoved old new).imp_right .inl
    · rcases sameFiles_or_arrowMoved old new with ⟨old, new⟩ | moved
      · exact .inl ⟨old.symm, new.symm⟩
      · exact .inr (.inr moved)
  · rintro (⟨old, new⟩ | moved | moved)
    · simp only [label, old, new]
    · exact label_eq_of_arrowMoved moved
    · exact (label_eq_of_arrowMoved moved).symm

theorem label_ne_iff {j k : Job} (apart : ¬ SameFiles j k) :
    j.label ≠ k.label ↔ ¬ ArrowMoved j k ∧ ¬ ArrowMoved k j := by
  rw [ne_eq, label_eq_iff, or_iff_right apart, not_or]

theorem not_arrowMoved_of_plain {j k : Job} (plain : ¬ [' ', '-', '>'] <:+: k.oldFile.toList) :
    ¬ ArrowMoved j k := by
  rintro (⟨between, old, -⟩ | ⟨old, -⟩)
  · exact plain ⟨j.oldFile.toList, ' ' :: between.toList, by simp [old]⟩
  · exact plain ⟨j.oldFile.toList, [], by simp [old]⟩

end Job

end XmlDelta.Compare
