import XmlDelta.Proofs.Toml.Text
import XmlDelta.Toml.Value

set_option autoImplicit false

namespace XmlDelta.Toml

def isSolid (c : Char) : Bool :=
  !isBlank c && c != '\n' && c != '\r' && c != '#'

def isGap (c : Char) : Bool :=
  c = '\n' || isBlank c

theorem skipGap_cons {c : Char} (solid : isSolid c = true) (s : List Char) :
    skipGap (c :: s) = c :: s := by
  simp only [isSolid, Bool.and_eq_true, Bool.not_eq_true', bne_iff_ne, ne_eq] at solid
  simp [skipGap, skipLines, solid]

theorem skipGap_append {gap : List Char} (blank : gap.all isGap = true) (s : List Char) :
    skipGap (gap ++ s) = skipGap s := by
  unfold skipGap
  induction gap with
  | nil => rfl
  | cons c gap ih =>
    simp only [List.all_cons, Bool.and_eq_true, isGap, Bool.or_eq_true, decide_eq_true_eq] at blank
    rw [List.cons_append, skipLines]
    rcases blank.1 with line | space
    · rw [if_pos line, ih blank.2]
    · by_cases line : c = '\n'
      · rw [if_pos line, ih blank.2]
      · have feed : c ≠ '\r' := by
          rintro rfl
          cases space
        simp [line, feed, space, ih blank.2]

theorem exists_stringText_cons (s : String) :
    ∃ q r, stringText s = q :: r ∧ (q = '"' ∨ q = '\'') := by
  unfold stringText
  cases formOf s.toList with
  | basic => exact ⟨_, _, rfl, .inl rfl⟩
  | literal => exact ⟨_, _, rfl, .inr rfl⟩
  | longBasic => exact ⟨_, _, rfl, .inl rfl⟩
  | longLiteral => exact ⟨_, _, rfl, .inr rfl⟩

theorem readNested_string (depth : Nat) (s : String) {d : Char} (behind : d ≠ '"' ∧ d ≠ '\'')
    (r : List Char) : readNested depth (stringText s ++ d :: r) = .ok (.string s, d :: r) := by
  unfold readNested
  rw [readString?_stringText s behind r]
  rfl

section Items

variable {value : ValueReader} {n : Nat} {seen : List Value} {s r t : List Char}

theorem readItems_end (atEnd : skipGap s = ']' :: r) :
    readItems value (n + 1) seen s = .ok (.array seen.reverse, r) := by
  simp only [readItems, atEnd]

theorem readItems_next {v : Value} {c : Char} (first : skipGap s = c :: t) (goesOn : c ≠ ']')
    (read : value (c :: t) = .ok (v, r)) :
    readItems value (n + 1) seen s =
      match skipGap r with
      | ',' :: r => readItems value n (v :: seen) r
      | ']' :: r => .ok (.array (v :: seen).reverse, r)
      | _ => .error .expectedComma := by
  simp only [readItems, first]
  split
  · rename_i shape
    cases shape
    exact absurd rfl goesOn
  · simp only [read, bind, Except.bind]
    rfl

end Items

section Strings

variable {depth : Nat}

theorem readItems_string {n : Nat} {seen : List Value} {gap : List Char}
    (blank : gap.all isGap = true) (s : String) {d : Char} (behind : d ≠ '"' ∧ d ≠ '\'')
    (solid : isSolid d = true) (r : List Char) :
    readItems (readNested depth) (n + 1) seen (gap ++ (stringText s ++ d :: r)) =
      match d :: r with
      | ',' :: r => readItems (readNested depth) n (.string s :: seen) r
      | ']' :: r => .ok (.array (.string s :: seen).reverse, r)
      | _ => .error .expectedComma := by
  have read := readNested_string depth s behind r
  obtain ⟨q, t, shape, quote⟩ := exists_stringText_cons s
  rw [shape, List.cons_append] at read ⊢
  have first : skipGap (gap ++ q :: (t ++ d :: r)) = q :: (t ++ d :: r) := by
    rw [skipGap_append blank]
    rcases quote with rfl | rfl
    · exact skipGap_cons (by decide) _
    · exact skipGap_cons (by decide) _
  have goesOn : q ≠ ']' := by
    rcases quote with rfl | rfl
    · decide
    · decide
  rw [readItems_next first goesOn read, skipGap_cons solid]

def itemLine (i : List Char) : List Char :=
  [' ', ' ', ' ', ' '] ++ i ++ [',', '\n']

theorem readItems_lines {fuel : Nat} {ss : List String} (enough : ss.length < fuel)
    (seen : List Value) (rest : List Char) :
    readItems (readNested depth) fuel seen
        ('\n' :: ((ss.map stringText).flatMap itemLine ++ ']' :: rest)) =
      .ok (.array (seen.reverse ++ ss.map .string), rest) := by
  have line : ['\n'].all isGap = true := by decide
  have indented : ['\n', ' ', ' ', ' ', ' '].all isGap = true := by decide
  induction ss generalizing fuel seen with
  | nil =>
    obtain ⟨n, rfl⟩ := Nat.exists_eq_add_one.mpr (Nat.zero_lt_of_lt enough)
    have atEnd : skipGap ('\n' :: ']' :: rest) = ']' :: rest :=
      (skipGap_append line _).trans (skipGap_cons (by decide) _)
    simpa using readItems_end atEnd
  | cons s ss ih =>
    obtain ⟨n, rfl⟩ := Nat.exists_eq_add_one.mpr (Nat.zero_lt_of_lt enough)
    have shape : '\n' :: (((s :: ss).map stringText).flatMap itemLine ++ ']' :: rest) =
        ['\n', ' ', ' ', ' ', ' '] ++ (stringText s ++
          ',' :: '\n' :: ((ss.map stringText).flatMap itemLine ++ ']' :: rest)) := by
      simp [itemLine]
    rw [shape, readItems_string indented s (by decide) (by decide)]
    simp only [ih (Nat.lt_of_succ_lt_succ enough)]
    simp

theorem readNested_array (r : List Char) :
    readNested (depth + 1) ('[' :: r) = readItems (readNested depth) (r.length + 1) [] r :=
  rfl

end Strings

section Keys

theorem readKey_bare {name : String} (bare : name.toList.all isBare = true)
    (nonempty : name ≠ "") (rest : List Char)
    (ends : rest.takeWhile isBare = []) (last : (skipBlanks rest).head? ≠ some '.') :
    readKey (name.toList ++ rest) = .ok (⟨[], name⟩, skipBlanks rest) := by
  obtain ⟨c, cs, shape⟩ := List.exists_cons_of_ne_nil (mt String.toList_eq_nil_iff.mp nonempty)
  have first : isBare c = true := List.all_eq_true.mp bare c (by simp [shape])
  have solid : isBlank c = false ∧ c ≠ '"' ∧ c ≠ '\'' := by
    refine ⟨?_, ?_, ?_⟩
    · rw [isBlank, Bool.or_eq_false_iff, decide_eq_false_iff_not, decide_eq_false_iff_not]
      constructor
      · rintro rfl
        cases first
      · rintro rfl
        cases first
    · rintro rfl
      cases first
    · rintro rfl
      cases first
  have starts : skipBlanks (name.toList ++ rest) = name.toList ++ rest := by
    rw [shape]
    exact List.dropWhile_cons_of_neg (by simp [solid.1])
  have unquoted : readString? false (name.toList ++ rest) = none := by
    rw [shape, List.cons_append]
    unfold readString?
    split
    · rename_i same
      cases same
      exact absurd rfl solid.2.1
    · rename_i same
      cases same
      exact absurd rfl solid.2.2
    · rfl
  have word : (name.toList ++ rest).takeWhile isBare = name.toList := by
    rw [List.takeWhile_append_of_pos (List.all_eq_true.mp bare), ends, List.append_nil]
  have named : readName (name.toList ++ rest) = .ok (name, rest) := by
    simp [readName, unquoted, word, nonempty]
  rw [readKey, readNames, starts, named]
  simp only [bind, Except.bind]
  split
  · rename_i dot
    rw [dot] at last
    exact absurd rfl last
  · rfl

end Keys

end XmlDelta.Toml
