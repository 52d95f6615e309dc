import XmlDelta.Proofs.Toml.Quotes

set_option autoImplicit false

namespace XmlDelta.Toml

open XmlDelta.Text

theorem isPlain_or_newline {c : Char} (printable : isControl c = false) :
    isPlain c = true ∨ c = '\n' := by
  by_cases line : c = '\n'
  · exact .inr line
  by_cases tab : c = '\t'
  · exact .inl (by simp [isPlain, tab])
  · simp only [isControl, Bool.or_eq_false_iff, Bool.and_eq_false_iff, bne_eq_false_iff_eq, tab, line,
      or_false, decide_eq_false_iff_not, Nat.not_lt, beq_eq_false_iff_ne] at printable
    exact .inl (by simp [isPlain, printable.1, printable.2])

theorem readLiteral_append (seen : List Char) {cs : List Char}
    (plain : ∀ c ∈ cs, isPlain c = true) (unquoted : '\'' ∉ cs) (rest : List Char) :
    readLiteral seen (cs ++ '\'' :: rest) = .ok (String.ofList (seen.reverse ++ cs), rest) := by
  induction cs generalizing seen with
  | nil => rw [List.nil_append, readLiteral, if_pos rfl, List.append_nil]
  | cons c cs ih =>
    simp only [List.mem_cons, not_or] at unquoted
    rw [List.cons_append, readLiteral, if_neg (Ne.symm unquoted.1), if_pos (plain c (by simp)),
      ih _ (fun d inside => plain d (by simp [inside])) unquoted.2]
    simp

theorem readLongLiteral_append (seen : List Char) {cs : List Char}
    (plain : ∀ c ∈ cs, isPlain c = true ∨ c = '\n') (few : ¬ triple '\'' <:+: cs)
    (rest : List Char) (behind : rest.head? ≠ some '\'') :
    readLongLiteral seen (cs ++ (triple '\'' ++ rest)) =
      .ok (String.ofList (seen.reverse ++ cs), rest) := by
  have closes := closing?_append (fun begins => few begins.isInfix) behind
  induction cs generalizing seen with
  | nil =>
    rw [List.all_nil, if_pos rfl, List.nil_append] at closes
    rw [List.nil_append, triple, List.cons_append, readLongLiteral, ← List.cons_append, ← triple,
      closes]
    simp
  | cons c cs ih =>
    rw [List.cons_append] at closes
    rw [List.cons_append, readLongLiteral, closes]
    by_cases quotes : (c :: cs).all (· = '\'') = true
    · simp only [if_pos quotes]
      rw [List.reverse_append, List.reverse_replicate, eq_replicate_of_all quotes]
    · have character : isPlainOrLine c (cs ++ (triple '\'' ++ rest)) = true := by
        rcases plain c List.mem_cons_self with solid | rfl
        · simp [isPlainOrLine, solid]
        · simp [isPlainOrLine]
      have fewer : ¬ triple '\'' <:+: cs := fun run => few (run.trans (List.suffix_cons c cs).isInfix)
      have read := ih (c :: seen) (fun d inside => plain d (List.mem_cons_of_mem _ inside)) fewer
        (closing?_append (fun begins => fewer begins.isInfix) behind)
      simp only [if_neg quotes, character, if_true, read]
      simp

structure Escapes (e : List Char) (c : Char) : Prop where
  read : ∀ s, readEscape (e ++ s) = some (c, s)
  joinsNoLine : ∀ s, skipFold (e ++ s) = none

theorem skipFold_cons {c : Char} (solid : isBlank c = false) (line : c ≠ '\n') (feed : c ≠ '\r')
    (s : List Char) : skipFold (c :: s) = none := by
  have stays : skipBlanks (c :: s) = c :: s := List.dropWhile_cons_of_neg (by simp [solid])
  have noEnd : lineEnd? (c :: s) = none := by
    unfold lineEnd?
    split <;> simp_all
  rw [skipFold, stays, noEnd]
  rfl

theorem escapes_of_simple {d c : Char} (simple : simpleEscape d = some c)
    (solid : isBlank d = false ∧ d ≠ '\n' ∧ d ≠ '\r' ∧ escapeDigits d = none) : Escapes [d] c where
  read s := by
    simp [readEscape, solid.2.2.2, simple]
  joinsNoLine := skipFold_cons solid.1 solid.2.1 solid.2.2.1

theorem readHex_small {n : Nat} (small : n < 256) (s : List Char) :
    readHex 4 0 ('0' :: '0' :: upperHexDigit (n / 16) :: upperHexDigit (n % 16) :: s) =
      some (n, s) := by
  have zero : hexValue '0' = some 0 := by decide
  have high := hexValue_upperHexDigit (n / 16) (by omega)
  have low := hexValue_upperHexDigit (n % 16) (by omega)
  have whole : ((0 * 16 + 0) * 16 + n / 16) * 16 + n % 16 = n := by omega
  simp only [readHex, zero, high, low, Option.bind_some, Nat.zero_mul, whole]

theorem escapes_unicode {c : Char} (control : isControl c = true) :
    Escapes ['u', '0', '0', upperHexDigit (c.toNat / 16), upperHexDigit (c.toNat % 16)] c where
  read s := by
    have small : c.toNat < 256 := by
      simp only [isControl, Bool.or_eq_true, Bool.and_eq_true, decide_eq_true_eq, beq_iff_eq] at control
      omega
    have valid : c.toNat.isValidChar := c.valid
    have four : escapeDigits 'u' = some 4 := by decide
    simp [readEscape, four, readHex_small small, scalar?, valid]
  joinsNoLine _ := skipFold_cons (by decide) (by decide) (by decide) _

theorem exists_escapes_of_escapeOf? {c : Char} {w : List Char} (escaped : escapeOf? c = some w) :
    ∃ e, w = '\\' :: e ∧ Escapes e c := by
  have numbered {n : Nat} (same : c.toNat = n) : Char.ofNat n = c := same ▸ Char.ofNat_toNat c
  rw [escapeOf?] at escaped
  split at escaped
  · cases escaped
    subst_vars
    exact ⟨_, rfl, escapes_of_simple rfl (by decide)⟩
  split at escaped
  · cases escaped
    subst_vars
    exact ⟨_, rfl, escapes_of_simple rfl (by decide)⟩
  split at escaped
  · cases escaped
    subst_vars
    exact ⟨_, rfl, escapes_of_simple rfl (by decide)⟩
  split at escaped
  · rename_i backspace
    cases escaped
    exact ⟨_, rfl, numbered backspace ▸ escapes_of_simple rfl (by decide)⟩
  split at escaped
  · rename_i feed
    cases escaped
    exact ⟨_, rfl, numbered feed ▸ escapes_of_simple rfl (by decide)⟩
  split at escaped
  · rename_i control
    cases escaped
    exact ⟨_, rfl, escapes_unicode control⟩
  · cases escaped

theorem plain_of_escapeOf? {c : Char} (bare : escapeOf? c = none) :
    isPlain c = true ∧ c ≠ '\\' := by
  by_cases control : isControl c = true
  · simp only [escapeOf?, control, if_true] at bare
    repeat' split at bare
    all_goals cases bare
  · have plain := isPlain_or_newline (by simpa using control)
    by_cases line : c = '\n'
    · subst line
      cases bare
    · refine ⟨plain.resolve_right line, fun slash => ?_⟩
      subst slash
      cases bare

theorem readBasic_of_escapes {e : List Char} {c : Char} (escapes : Escapes e c)
    (seen s : List Char) : readBasic seen ('\\' :: (e ++ s)) = readBasic (c :: seen) s := by
  rw [readBasic, if_neg (by decide), if_pos rfl]
  split
  · rename_i fault
    rw [escapes.read] at fault
    cases fault
  · rename_i same
    rw [escapes.read] at same
    cases same
    rfl

theorem readBasic_of_plain {c : Char} (plain : isPlain c = true) (quote : c ≠ '"')
    (slash : c ≠ '\\') (seen s : List Char) :
    readBasic seen (c :: s) = readBasic (c :: seen) s := by
  rw [readBasic, if_neg quote, if_neg slash, if_pos plain]

theorem exists_escapeBasic_cons (c : Char) (cs : List Char) :
    (∃ e, escapeBasic (c :: cs) = '\\' :: (e ++ escapeBasic cs) ∧ Escapes e c) ∨
      (escapeBasic (c :: cs) = c :: escapeBasic cs ∧ isPlain c = true ∧ c ≠ '"' ∧ c ≠ '\\') := by
  rw [escapeBasic, List.flatMap_cons, ← escapeBasic]
  by_cases quote : c = '"'
  · subst quote
    exact .inl ⟨['"'], rfl, escapes_of_simple rfl (by decide)⟩
  by_cases tab : c = '\t'
  · subst tab
    exact .inl ⟨['t'], rfl, escapes_of_simple rfl (by decide)⟩
  rw [if_neg quote, if_neg tab]
  cases escaped : escapeOf? c with
  | some w =>
    obtain ⟨e, rfl, escapes⟩ := exists_escapes_of_escapeOf? escaped
    exact .inl ⟨e, rfl, escapes⟩
  | none =>
    obtain ⟨plain, slash⟩ := plain_of_escapeOf? escaped
    exact .inr ⟨rfl, plain, quote, slash⟩

theorem readBasic_escapeBasic (seen cs rest : List Char) :
    readBasic seen (escapeBasic cs ++ '"' :: rest) =
      .ok (String.ofList (seen.reverse ++ cs), rest) := by
  induction cs generalizing seen with
  | nil =>
    rw [escapeBasic, List.flatMap_nil, List.nil_append, readBasic, if_pos rfl, List.append_nil]
  | cons c cs ih =>
    have next : seen.reverse ++ c :: cs = (c :: seen).reverse ++ cs := by simp
    rw [next, ← ih (c :: seen)]
    rcases exists_escapeBasic_cons c cs with ⟨e, shape, escapes⟩ | ⟨shape, plain, quote, slash⟩
    · rw [shape, List.cons_append, List.append_assoc, readBasic_of_escapes escapes]
    · rw [shape, List.cons_append, readBasic_of_plain plain quote slash]

theorem readLongBasic_of_escapes {e : List Char} {c : Char} (escapes : Escapes e c)
    (seen s : List Char) : readLongBasic seen ('\\' :: (e ++ s)) = readLongBasic (c :: seen) s := by
  rw [readLongBasic]
  simp only [closing?_cons_of_ne (by decide : '\\' ≠ '"'), if_true]
  split
  · rename_i joined
    rw [escapes.joinsNoLine] at joined
    cases joined
  · split
    · rename_i fault
      rw [escapes.read] at fault
      cases fault
    · rename_i same
      rw [escapes.read] at same
      cases same
      rfl

theorem readLongBasic_of_plain {c : Char} {s : List Char} (goesOn : closing? '"' (c :: s) = none)
    (plain : isPlain c = true ∨ c = '\n') (slash : c ≠ '\\') (seen : List Char) :
    readLongBasic seen (c :: s) = readLongBasic (c :: seen) s := by
  have character : isPlainOrLine c s = true := by
    rcases plain with solid | rfl
    · simp [isPlainOrLine, solid]
    · simp [isPlainOrLine]
  rw [readLongBasic]
  simp only [goesOn, slash, if_false, character, if_true]

theorem readLongBasic_of_closing {s rest : List Char} {n : Nat}
    (closes : closing? '"' s = some (n, rest)) (seen : List Char) :
    readLongBasic seen s = .ok (String.ofList (seen.reverse ++ List.replicate n '"'), rest) := by
  cases s with
  | nil => cases closes
  | cons c s =>
    rw [readLongBasic]
    simp only [closes, List.reverse_append, List.reverse_replicate]

theorem exists_escapeLong_cons {c : Char} (other : c ≠ '"') (k : Nat) (cs : List Char) :
    (∃ e, escapeLong k (c :: cs) = '\\' :: (e ++ escapeLong 0 cs) ∧ Escapes e c) ∨
      (escapeLong k (c :: cs) = c :: escapeLong 0 cs ∧ (isPlain c = true ∨ c = '\n') ∧
        c ≠ '\\') := by
  rw [escapeLong, if_neg other]
  by_cases line : c = '\n'
  · subst line
    exact .inr ⟨rfl, .inr rfl, by decide⟩
  by_cases tab : c = '\t'
  · subst tab
    exact .inl ⟨['t'], rfl, escapes_of_simple rfl (by decide)⟩
  rw [if_neg line, if_neg tab]
  cases escaped : escapeOf? c with
  | some w =>
    obtain ⟨e, rfl, escapes⟩ := exists_escapes_of_escapeOf? escaped
    exact .inl ⟨e, rfl, escapes⟩
  | none =>
    obtain ⟨plain, slash⟩ := plain_of_escapeOf? escaped
    exact .inr ⟨rfl, .inl plain, slash⟩

theorem not_quotes_escapeLong {k : Nat} (few : k ≤ 2) (cs : List Char) :
    ¬ List.replicate (3 - k) '"' <+: escapeLong k cs := by
  obtain ⟨n, count⟩ : ∃ n, 3 - k = n + 1 := ⟨2 - k, by omega⟩
  induction cs generalizing k n with
  | nil => simp [escapeLong, count, List.replicate_succ]
  | cons c cs ih =>
    rw [count, List.replicate_succ]
    by_cases quote : c = '"'
    · rw [escapeLong, if_pos quote]
      by_cases full : k = 2
      · simp [full]
      · rw [if_neg full, List.cons_prefix_cons, not_and]
        intro _
        have fewer := ih (k := k + 1) (by omega) (2 - (k + 1)) (by omega)
        rwa [show 3 - (k + 1) = n by omega] at fewer
    · rcases exists_escapeLong_cons quote k cs with ⟨e, shape, -⟩ | ⟨shape, -, -⟩
      · simp [shape]
      · simp [shape, Ne.symm quote]

theorem not_triple_escapeLong {k : Nat} (few : k ≤ 2) (cs : List Char) :
    ¬ triple '"' <+: escapeLong k cs := by
  intro begins
  apply not_quotes_escapeLong few cs
  have shorter : List.replicate (3 - k) '"' <+: List.replicate 3 '"' :=
    ⟨List.replicate k '"', by rw [List.replicate_append_replicate]; congr 1; omega⟩
  exact shorter.trans begins

theorem escapeLong_of_all {k : Nat} {cs : List Char}
    (quotes : (escapeLong k cs).all (· = '"') = true) : escapeLong k cs = cs := by
  induction cs generalizing k with
  | nil => rfl
  | cons c cs ih =>
    by_cases quote : c = '"'
    · rw [escapeLong, if_pos quote] at quotes ⊢
      by_cases full : k = 2
      · simp [full] at quotes
      · rw [if_neg full] at quotes ⊢
        rw [ih (by simpa using quotes), quote]
    · rcases exists_escapeLong_cons quote k cs with ⟨e, shape, -⟩ | ⟨shape, -, -⟩
      · simp [shape] at quotes
      · simp [shape, quote] at quotes

-- `k` counts the quotes that came right before, and two of them make the next one escaped.
theorem readLongBasic_escapeLong {k : Nat} (few : k ≤ 2) (seen cs rest : List Char)
    (behind : rest.head? ≠ some '"') :
    readLongBasic seen (escapeLong k cs ++ (triple '"' ++ rest)) =
      .ok (String.ofList (seen.reverse ++ cs), rest) := by
  have closes := closing?_append (not_triple_escapeLong few cs) behind
  induction cs generalizing k seen with
  | nil =>
    rw [readLongBasic_of_closing (n := 0) closes]
    rfl
  | cons c cs ih =>
    have next : seen.reverse ++ c :: cs = (c :: seen).reverse ++ cs := by simp
    have rest₀ := ih (k := 0) (by omega) (c :: seen)
      (closing?_append (not_triple_escapeLong (by omega) cs) behind)
    by_cases quote : c = '"'
    · subst quote
      by_cases full : k = 2
      · rw [escapeLong, if_pos rfl, if_pos full, next, ← rest₀]
        exact readLongBasic_of_escapes (e := ['"']) (escapes_of_simple rfl (by decide)) _ _
      by_cases quotes : (escapeLong k ('"' :: cs)).all (· = '"') = true
      · rw [if_pos quotes] at closes
        rw [readLongBasic_of_closing closes, eq_replicate_of_all quotes, escapeLong_of_all quotes]
      · rw [if_neg quotes] at closes
        rw [escapeLong, if_pos rfl, if_neg full, List.cons_append] at closes ⊢
        rw [readLongBasic_of_plain closes (.inl (by decide)) (by decide), next]
        exact ih (by omega) _ (closing?_append (not_triple_escapeLong (by omega) cs) behind)
    · rw [next, ← rest₀]
      rcases exists_escapeLong_cons quote k cs with ⟨e, shape, escapes⟩ | ⟨shape, plain, slash⟩
      · rw [shape, List.cons_append, List.append_assoc, readLongBasic_of_escapes escapes]
      · rw [shape, List.cons_append,
          readLongBasic_of_plain (closing?_cons_of_ne quote _) plain slash]

theorem lineEnd?_of_plain {c : Char} (plain : isPlain c = true) (s : List Char) :
    lineEnd? (c :: s) = none := by
  unfold lineEnd?
  split
  · rename_i shape
    cases shape
    cases plain
  · rename_i shape
    cases shape
    cases plain
  · rfl

section Forms

variable {cs : List Char} {d : Char} {r : List Char}

theorem readString?_basic (cs : List Char) (behind : d ≠ '"') :
    readString? true (writeAs cs .basic ++ d :: r) = some (.ok (String.ofList cs, d :: r)) := by
  have short : (escapeBasic cs ++ '"' :: d :: r).take 2 ≠ ['"', '"'] := by
    cases cs with
    | nil => simp [escapeBasic, behind]
    | cons c cs =>
      rcases exists_escapeBasic_cons c cs with ⟨e, shape, -⟩ | ⟨shape, -, quote, -⟩
      · simp [shape]
      · simp [shape, quote]
  have read := readBasic_escapeBasic [] cs (d :: r)
  simp only [writeAs, List.cons_append, List.append_assoc, List.nil_append, readString?, short]
  simp [read]

theorem readString?_literal (nonempty : cs ≠ []) (plain : ∀ c ∈ cs, isPlain c = true)
    (unquoted : '\'' ∉ cs) (rest : List Char) :
    readString? true (writeAs cs .literal ++ rest) = some (.ok (String.ofList cs, rest)) := by
  have short : (cs ++ '\'' :: rest).take 2 ≠ ['\'', '\''] := by
    rcases cs with _ | ⟨c, cs⟩
    · exact absurd rfl nonempty
    · have other : c ≠ '\'' := fun same => unquoted (same ▸ List.mem_cons_self)
      simp [other]
  have read := readLiteral_append [] plain unquoted rest
  simp only [writeAs, List.cons_append, List.append_assoc, List.nil_append, readString?, short]
  simp [read]

theorem dropFirstLineEnd_tripled {body : List Char}
    (solid : '\n' ∉ cs → ∃ c s, body = c :: s ∧ isPlain c = true) :
    dropFirstLineEnd ((if cs.contains '\n' then ['\n'] else []) ++ body) = body := by
  by_cases several : '\n' ∈ cs
  · simp [several, dropFirstLineEnd, lineEnd?]
  · obtain ⟨c, s, rfl, plain⟩ := solid several
    simp [several, dropFirstLineEnd, lineEnd?_of_plain plain]

theorem readString?_longBasic (cs : List Char) (behind : d ≠ '"') :
    readString? true (writeAs cs .longBasic ++ d :: r) = some (.ok (String.ofList cs, d :: r)) := by
  have solid : '\n' ∉ cs →
      ∃ c s, escapeLong 0 cs ++ (triple '"' ++ d :: r) = c :: s ∧ isPlain c = true := by
    intro single
    rcases cs with _ | ⟨c, cs⟩
    · exact ⟨_, _, rfl, by decide⟩
    by_cases quote : c = '"'
    · subst quote
      exact ⟨_, _, rfl, by decide⟩
    rcases exists_escapeLong_cons quote 0 cs with ⟨e, shape, -⟩ | ⟨shape, plain, -⟩
    · exact ⟨_, _, by rw [shape]; rfl, by decide⟩
    · have line : c ≠ '\n' := fun same => single (same ▸ List.mem_cons_self)
      exact ⟨_, _, by rw [shape]; rfl, plain.resolve_right line⟩
  have read := readLongBasic_escapeLong (k := 0) (by omega) [] cs (d :: r)
    (by simpa using behind)
  rw [← dropFirstLineEnd_tripled solid] at read
  simpa [writeAs, tripled, readString?, triple] using read

theorem readString?_longLiteral (nonempty : cs ≠ [])
    (plain : ∀ c ∈ cs, isPlain c = true ∨ c = '\n') (few : ¬ triple '\'' <:+: cs)
    (behind : d ≠ '\'') :
    readString? true (writeAs cs .longLiteral ++ d :: r) =
      some (.ok (String.ofList cs, d :: r)) := by
  have solid : '\n' ∉ cs → ∃ c s, cs ++ (triple '\'' ++ d :: r) = c :: s ∧ isPlain c = true := by
    intro single
    rcases cs with _ | ⟨c, cs⟩
    · exact absurd rfl nonempty
    · have line : c ≠ '\n' := fun same => single (same ▸ List.mem_cons_self)
      exact ⟨_, _, rfl, (plain c List.mem_cons_self).resolve_right line⟩
  have read := readLongLiteral_append [] plain few (d :: r) (by simpa using behind)
  rw [← dropFirstLineEnd_tripled solid] at read
  simpa [writeAs, tripled, readString?, triple] using read

end Forms

theorem readString?_stringText (s : String) {d : Char} (behind : d ≠ '"' ∧ d ≠ '\'')
    (r : List Char) : readString? true (stringText s ++ d :: r) = some (.ok (s, d :: r)) := by
  have back : String.ofList s.toList = s := String.ofList_toList
  rw [stringText, formOf]
  generalize s.toList = cs at back
  subst back
  by_cases simple : cs.all isSimple = true
  · rw [if_pos simple]
    exact readString?_basic cs behind.1
  have nonempty : cs ≠ [] := by
    rintro rfl
    exact simple rfl
  rw [if_neg simple]
  split
  · exact readString?_basic cs behind.1
  split
  · rename_i literal
    simp only [Bool.and_eq_true, Bool.not_eq_true', decide_eq_true_eq, List.any_eq_false] at literal
    obtain ⟨⟨printable, none⟩, single⟩ := literal
    refine readString?_literal nonempty (fun c inside => ?_) (not_mem_of_longestRun none) _
    have line : c ≠ '\n' := by
      rintro rfl
      simp [inside] at single
    exact (isPlain_or_newline (by simpa using printable c inside)).resolve_right line
  split
  · exact readString?_longBasic cs behind.1
  split
  · rename_i literal
    simp only [Bool.and_eq_true, Bool.not_eq_true', decide_eq_true_eq, List.any_eq_false] at literal
    refine readString?_longLiteral nonempty (fun c inside => ?_)
      (not_triple_of_longestRun literal.2) behind.2
    exact isPlain_or_newline (by simpa using literal.1 c inside)
  split
  · exact readString?_longBasic cs behind.1
  · exact readString?_basic cs behind.1

end XmlDelta.Toml
