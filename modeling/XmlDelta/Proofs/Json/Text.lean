import XmlDelta.Json.Text

set_option autoImplicit false

namespace XmlDelta.Json

open XmlDelta.Text (hexDigit hexValue hexValue_hexDigit)

theorem skipSpace_append {blank : List Char} (spaces : blank.all isSpace = true) (s : List Char) :
    skipSpace (blank ++ s) = skipSpace s :=
  List.dropWhile_append_of_pos (List.all_eq_true.mp spaces)

theorem skipSpace_cons {c : Char} (solid : isSpace c = false) (s : List Char) :
    skipSpace (c :: s) = c :: s :=
  List.dropWhile_cons_of_neg (by simp [solid])

theorem readHex4_small {n : Nat} (small : n < 256) (s : List Char) :
    readHex4 ('0' :: '0' :: hexDigit (n / 16) :: hexDigit (n % 16) :: s) = .ok (n, s) := by
  have zero : hexValue '0' = some 0 := by decide
  have high := hexValue_hexDigit (n / 16) (by omega)
  have low := hexValue_hexDigit (n % 16) (by omega)
  have whole : ((0 * 16 + 0) * 16 + n / 16) * 16 + n % 16 = n := by omega
  simp only [readHex4, zero, high, low, whole]

theorem readEscape_of_simple {c d : Char} (short : simpleEscape c = some d) (plain : c ≠ 'u')
    (s : List Char) : readEscape (c :: s) = .ok (d, s) := by
  rw [readEscape, if_neg plain, short]

theorem readEscape_unicode {c : Char} (control : c.toNat < 32) (s : List Char) :
    readEscape ('u' :: '0' :: '0' :: hexDigit (c.toNat / 16) :: hexDigit (c.toNat % 16) :: s) =
      .ok (c, s) := by
  have trail : (0xDC00 ≤ c.toNat && c.toNat ≤ 0xDFFF) = false := by
    rw [Bool.and_eq_false_iff, decide_eq_false_iff_not]
    exact .inl (by omega)
  have lead : (0xD800 ≤ c.toNat && c.toNat ≤ 0xDBFF) = false := by
    rw [Bool.and_eq_false_iff, decide_eq_false_iff_not]
    exact .inl (by omega)
  rw [readEscape, if_pos rfl, readUnicode, readHex4_small (by omega)]
  simp only [trail, lead, Bool.false_eq_true, if_false, Char.ofNat_toNat]

theorem readTextFrom_of_escape {seen s r : List Char} {c : Char} (read : readEscape s = .ok (c, r)) :
    readTextFrom seen ('\\' :: s) = readTextFrom (c :: seen) r := by
  rw [readTextFrom, if_neg (by decide), if_pos rfl]
  split
  · rename_i fault
    rw [read] at fault
    cases fault
  · rename_i same
    rw [read] at same
    cases same
    rfl

theorem readTextFrom_escapeChar (seen : List Char) (c : Char) (s : List Char) :
    readTextFrom seen (escapeChar c ++ s) = readTextFrom (c :: seen) s := by
  have simple {e d : Char} (short : simpleEscape e = some d) (plain : e ≠ 'u') :
      readTextFrom seen ('\\' :: e :: s) = readTextFrom (d :: seen) s :=
    readTextFrom_of_escape (readEscape_of_simple short plain s)
  have numbered {n : Nat} (same : c.toNat = n) : Char.ofNat n = c := same ▸ Char.ofNat_toNat c
  rw [escapeChar]
  split
  · subst_vars
    exact simple rfl (by decide)
  split
  · subst_vars
    exact simple rfl (by decide)
  split
  · subst_vars
    exact simple rfl (by decide)
  split
  · subst_vars
    exact simple rfl (by decide)
  split
  · subst_vars
    exact simple rfl (by decide)
  split
  · rename_i backspace
    exact numbered backspace ▸ simple rfl (by decide)
  split
  · rename_i feed
    exact numbered feed ▸ simple rfl (by decide)
  split
  · rename_i control
    exact readTextFrom_of_escape (readEscape_unicode control s)
  · rename_i quote slash _ _ _ _ _ solid
    rw [List.cons_append, List.nil_append, readTextFrom, if_neg quote, if_neg slash, if_neg solid]

theorem readTextFrom_escape (seen cs s : List Char) :
    readTextFrom seen (escape cs ++ '"' :: s) = .ok (String.ofList (seen.reverse ++ cs), s) := by
  induction cs generalizing seen with
  | nil => rw [escape, List.flatMap_nil, List.nil_append, readTextFrom, if_pos rfl, List.append_nil]
  | cons c cs ih =>
    rw [escape, List.flatMap_cons, ← escape, List.append_assoc, readTextFrom_escapeChar, ih]
    simp

theorem readText_escape (s : String) (r : List Char) :
    readText (escape s.toList ++ '"' :: r) = .ok (s, r) := by
  rw [readText, readTextFrom_escape]
  simp

theorem stringText_append (s : String) (r : List Char) :
    stringText s ++ r = '"' :: (escape s.toList ++ '"' :: r) := by
  simp [stringText]

end XmlDelta.Json
