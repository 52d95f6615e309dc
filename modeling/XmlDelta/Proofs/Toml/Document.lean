import XmlDelta.Proofs.Toml.Value
import XmlDelta.Toml.Document

set_option autoImplicit false

namespace XmlDelta.Toml

structure Line (text : List Char) (st : Statement) : Prop where
  solid : ∃ c r, text = c :: r ∧ isSolid c = true
  back : ∀ r, readStatement (text ++ '\n' :: r) = .ok (st, '\n' :: r)

theorem readStatements_line {text : List Char} {st : Statement} (line : Line text st)
    {gap : List Char} (blank : gap.all isGap = true) (n : Nat) (r : List Char) :
    readStatements (n + 1) (gap ++ (text ++ '\n' :: r)) = (readStatements n r).map (st :: ·) := by
  obtain ⟨c, t, shape, solid⟩ := line.solid
  have starts : skipGap (gap ++ (text ++ '\n' :: r)) = c :: (t ++ '\n' :: r) := by
    rw [skipGap_append blank, shape]
    exact skipGap_cons solid _
  have read : readStatement (c :: (t ++ '\n' :: r)) = .ok (st, '\n' :: r) := by
    rw [← List.cons_append, ← shape]
    exact line.back r
  have ends : endLine? ('\n' :: r) = some r := rfl
  simp only [readStatements, starts, read, bind, Except.bind, ends]
  cases readStatements n r with
  | error f => rfl
  | ok sts => rfl

theorem readStatements_end {gap : List Char} (blank : gap.all isGap = true) (n : Nat) :
    readStatements (n + 1) gap = .ok [] := by
  have atEnd : skipGap gap = [] := by
    rw [← List.append_nil gap, skipGap_append blank]
    rfl
  simp only [readStatements, atEnd]

section Lines

variable {name : String} (bare : name.toList.all isBare = true) (nonempty : name ≠ "")

include bare nonempty

theorem line_nextTable :
    Line ('[' :: '[' :: (name.toList ++ [']', ']'])) (.nextTable ⟨[], name⟩) where
  solid := ⟨'[', _, rfl, by decide⟩
  back r := by
    have key := readKey_bare bare nonempty (']' :: ']' :: '\n' :: r) rfl (by rintro ⟨⟩)
    have shape : '[' :: '[' :: (name.toList ++ [']', ']']) ++ '\n' :: r =
        '[' :: '[' :: (name.toList ++ ']' :: ']' :: '\n' :: r) := by
      simp
    rw [shape, readStatement, readHeader, key]
    rfl

theorem line_entry {text : List Char} {v : Value} (solid : ∃ c r, text = c :: r ∧ isBlank c = false)
    (back : ∀ r, readValue (text ++ '\n' :: r) = .ok (v, '\n' :: r)) :
    Line (name.toList ++ ' ' :: '=' :: ' ' :: text) (.entry ⟨[], name⟩ v) := by
  obtain ⟨c, cs, shape⟩ := List.exists_cons_of_ne_nil (mt String.toList_eq_nil_iff.mp nonempty)
  have first : isBare c = true := List.all_eq_true.mp bare c (by simp [shape])
  constructor
  · refine ⟨c, _, by rw [shape]; rfl, ?_⟩
    simp only [isSolid, isBlank, Bool.and_eq_true, Bool.not_eq_true', Bool.or_eq_false_iff,
      decide_eq_false_iff_not, bne_iff_ne, ne_eq]
    refine ⟨⟨⟨⟨?_, ?_⟩, ?_⟩, ?_⟩, ?_⟩
    all_goals
      rintro rfl
      cases first
  · intro r
    obtain ⟨d, t, rfl, solid⟩ := solid
    have key := readKey_bare bare nonempty (' ' :: '=' :: ' ' :: (d :: t ++ '\n' :: r)) rfl
      (by rintro ⟨⟩)
    have equals : skipBlanks (' ' :: '=' :: ' ' :: (d :: t ++ '\n' :: r)) =
        '=' :: ' ' :: (d :: t ++ '\n' :: r) := rfl
    have behind : skipBlanks (' ' :: (d :: t ++ '\n' :: r)) = d :: t ++ '\n' :: r := by
      have blank : isBlank ' ' = true := rfl
      simp [skipBlanks, blank, solid]
    have entry : readEntry readValue
        (name.toList ++ ' ' :: '=' :: ' ' :: (d :: t ++ '\n' :: r)) =
          .ok (⟨[], name⟩, v, '\n' :: r) := by
      rw [readEntry, key, equals]
      simp only [bind, Except.bind, behind, back]
      rfl
    have bracket : c ≠ '[' := by
      rintro rfl
      cases first
    rw [List.append_assoc, List.cons_append, List.cons_append, List.cons_append]
    rw [shape] at entry ⊢
    unfold readStatement
    split
    · rename_i same
      exact absurd (List.cons.inj same).1 bracket
    · rename_i same
      exact absurd (List.cons.inj same).1 bracket
    · rw [entry]
      rfl

end Lines

end XmlDelta.Toml
