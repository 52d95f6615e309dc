import XmlDelta.Report.Fragment
import XmlDelta.Text.Digit

set_option autoImplicit false

namespace XmlDelta.Report

open XmlDelta.Text (isDigit)

def esc : Char := Char.ofNat 27

@[simp]
theorem esc_ne {c : Char} (solid : 32 ≤ c.toNat) : esc ≠ c := by
  rintro rfl
  exact absurd solid (by decide)

@[simp]
theorem esc_ne_newline : esc ≠ '\n' := by
  decide

@[simp]
theorem esc_ne_tab : esc ≠ '\t' := by
  decide

def colorSequence (number : List Char) : List Char :=
  esc :: '[' :: (number ++ ['m'])

def afterSequence? (cs : List Char) : Option (List Char) :=
  match cs with
  | c :: '[' :: r =>
    if c = esc ∧ r.takeWhile isDigit ≠ [] then
      match r.dropWhile isDigit with
      | 'm' :: rest => some rest
      | _ => none
    else none
  | _ => none

theorem afterSequence?_length {cs rest : List Char} (found : afterSequence? cs = some rest) :
    rest.length < cs.length := by
  unfold afterSequence? at found
  split at found
  · rename_i c r
    split at found
    · split at found
      · rename_i behind
        cases found
        have shorter := (List.dropWhile_suffix isDigit (l := r)).length_le
        rw [behind] at shorter
        simp only [List.length_cons] at shorter ⊢
        omega
      · cases found
    · cases found
  · cases found

def uncolored : List Char → List Char
  | [] => []
  | c :: r =>
    match _found : afterSequence? (c :: r) with
    | some rest => uncolored rest
    | none => c :: uncolored r
termination_by cs => cs.length
decreasing_by
  · exact afterSequence?_length _found
  · exact Nat.lt_succ_self _

/-- Texts in which a color that begins ends before the next one begins, and before the text ends. -/
inductive Closed : List Char → Prop where
  | nil : Closed []
  | plain {c : Char} {r : List Char} (plain : c ≠ esc) (rest : Closed r) : Closed (c :: r)
  | stretch {number inside r : List Char} (numbered : number ≠ [])
      (digits : number.all isDigit = true) (begins : number ≠ ['0']) (plain : esc ∉ inside)
      (rest : Closed r) :
      Closed (colorSequence number ++ (inside ++ (colorSequence ['0'] ++ r)))

theorem uncolored_cons (c : Char) (r : List Char) :
    uncolored (c :: r) =
      match afterSequence? (c :: r) with
      | some rest => uncolored rest
      | none => c :: uncolored r := by
  rw [uncolored]
  split
  · rename_i found
    rw [found]
  · rename_i missed
    rw [missed]

theorem uncolored_plain {c : Char} (plain : c ≠ esc) (r : List Char) :
    uncolored (c :: r) = c :: uncolored r := by
  have missed : afterSequence? (c :: r) = none := by
    unfold afterSequence?
    split
    · rename_i same
      cases same
      exact if_neg fun here => plain here.1
    · rfl
  rw [uncolored_cons, missed]

theorem uncolored_append {cs : List Char} (plain : esc ∉ cs) (r : List Char) :
    uncolored (cs ++ r) = cs ++ uncolored r := by
  induction cs with
  | nil => rfl
  | cons c cs ih =>
    obtain ⟨other, rest⟩ := List.ne_and_not_mem_of_not_mem_cons plain
    rw [List.cons_append, uncolored_plain (Ne.symm other), ih rest, List.cons_append]

theorem uncolored_sequence {number : List Char} (numbered : number ≠ [])
    (digits : number.all isDigit = true) (r : List Char) :
    uncolored (colorSequence number ++ r) = uncolored r := by
  have found : afterSequence? (esc :: '[' :: (number ++ 'm' :: r)) = some r := by
    have digits := List.all_eq_true.mp digits
    have letter : isDigit 'm' = false := by decide
    have front : (number ++ 'm' :: r).takeWhile isDigit = number := by
      rw [List.takeWhile_append_of_pos digits, List.takeWhile_cons_of_neg (by simp [letter]),
        List.append_nil]
    have behind : (number ++ 'm' :: r).dropWhile isDigit = 'm' :: r := by
      rw [List.dropWhile_append_of_pos digits, List.dropWhile_cons_of_neg (by simp [letter])]
    simp only [afterSequence?, front, behind, ne_eq, numbered, not_false_eq_true, and_self, if_true]
  have text : colorSequence number ++ r = esc :: '[' :: (number ++ 'm' :: r) := by
    simp [colorSequence]
  rw [text, uncolored_cons, found]

theorem closed_append {cs r : List Char} (plain : esc ∉ cs) (rest : Closed r) :
    Closed (cs ++ r) := by
  induction cs with
  | nil => exact rest
  | cons c cs ih =>
    obtain ⟨other, plain⟩ := List.ne_and_not_mem_of_not_mem_cons plain
    exact .plain (Ne.symm other) (ih plain)

theorem code_ne_nil (c : Color) : c.code.toList ≠ [] := by
  cases c <;> decide

theorem code_digits (c : Color) : c.code.toList.all isDigit = true := by
  cases c <;> decide

theorem code_ne_zero (c : Color) : c.code.toList ≠ ['0'] := by
  cases c <;> decide

namespace Fragment

def Plain (s : Fragment) : Prop :=
  esc ∉ s.text.toList

theorem toList_paint_colored (c : Color) (s : String) :
    (paint true ⟨s, some c⟩).toList =
      colorSequence c.code.toList ++ (s.toList ++ colorSequence ['0']) := by
  simp [paint, escape, colorSequence, esc]

theorem uncolored_paint_append {s : Fragment} (plain : s.Plain) (r : List Char) :
    uncolored ((s.paint true).toList ++ r) = s.text.toList ++ uncolored r := by
  obtain ⟨text, color⟩ := s
  cases color with
  | none => exact uncolored_append plain r
  | some c =>
    rw [toList_paint_colored, List.append_assoc, List.append_assoc,
      uncolored_sequence (code_ne_nil c) (code_digits c), uncolored_append plain,
      uncolored_sequence (by decide) (by decide)]

theorem closed_paint_append {s : Fragment} (plain : s.Plain) {r : List Char} (rest : Closed r) :
    Closed ((s.paint true).toList ++ r) := by
  obtain ⟨text, color⟩ := s
  cases color with
  | none => exact closed_append plain rest
  | some c =>
    rw [toList_paint_colored, List.append_assoc, List.append_assoc]
    exact .stretch (code_ne_nil c) (code_digits c) (code_ne_zero c) plain rest

end Fragment

theorem toList_paint_cons (s : Fragment) (fragments : List Fragment) :
    (paint true (s :: fragments)).toList =
      (s.paint true).toList ++ (paint true fragments).toList := by
  simp [paint]

theorem uncolored_paint {fragments : List Fragment} (plain : ∀ s ∈ fragments, s.Plain) :
    uncolored (paint true fragments).toList = (paint false fragments).toList := by
  rw [paint_false]
  induction fragments with
  | nil => simp [paint, uncolored]
  | cons s fragments ih =>
    obtain ⟨first, rest⟩ := List.forall_mem_cons.mp plain
    rw [toList_paint_cons, Fragment.uncolored_paint_append first, ih rest]
    simp

theorem closed_paint {fragments : List Fragment} (plain : ∀ s ∈ fragments, s.Plain) :
    Closed (paint true fragments).toList := by
  induction fragments with
  | nil => simpa [paint] using Closed.nil
  | cons s fragments ih =>
    obtain ⟨first, rest⟩ := List.forall_mem_cons.mp plain
    rw [toList_paint_cons]
    exact Fragment.closed_paint_append first (ih rest)

end XmlDelta.Report
