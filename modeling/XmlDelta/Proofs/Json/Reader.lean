import XmlDelta.Proofs.Jobs.Json

set_option autoImplicit false

namespace XmlDelta.Json

open XmlDelta.Jobs
open XmlDelta.Text (isDigit decimalValue)

def readNatural (s : List Char) : Reading Nat :=
  let digits := s.takeWhile isDigit
  let rest := s.dropWhile isDigit
  if digits.head? = some '0' ∧ 1 < digits.length then .error .invalidNumber
  else
    match rest.head? with
    | some '.' | some 'e' | some 'E' => .error .invalidNumber
    | _ => .ok (decimalValue digits, rest)

def readMembers (item : List Char → Reading Value) (fuel : Nat) (seen : List (String × Value))
    (s : List Char) : Except Fault (List (String × Value) × List Char) :=
  match fuel with
  | 0 => .error .eofObject
  | n + 1 => do
    match ← nextKey seen.isEmpty s with
    | none => return (seen.reverse, ← endObject s)
    | some (key, r) =>
      let (v, r) ← readColon r >>= item
      readMembers item n ((key, v) :: seen) r

def readValue (fuel : Nat) (s : List Char) : Reading Value :=
  match fuel with
  | 0 => .error .eofValue
  | n + 1 =>
    match skipSpace s with
    | [] => .error .eofValue
    | c :: r =>
      if c = 't' then (readWord ['r', 'u', 'e'] r).map fun r => (.bool true, r)
      else if c = 'f' then (readWord ['a', 'l', 's', 'e'] r).map fun r => (.bool false, r)
      else if c = '"' then (readText r).map fun (s, r) => (.string s, r)
      else if c = '[' then
        (readList (readValue n) (c :: r)).map fun (vs, r) => (.list vs, r)
      else if c = '\x7b' then
        (readMembers (readValue n) (r.length + 1) [] r).map fun (fs, r) => (.object fs, r)
      else if isDigit c then (readNatural (c :: r)).map fun (m, r) => (.number m, r)
      else .error .expectedValue

def Value.ofText (s : String) : Except Fault Value := do
  let (v, r) ← readValue (s.length + 1) s.toList
  if (skipSpace r).isEmpty then .ok v else .error .trailingCharacters

section Numbers

theorem isDigit_of_mem_repr {n : Nat} {c : Char} (inside : c ∈ (Nat.repr n).toList) :
    isDigit c = true := by
  rw [Nat.toList_repr] at inside
  have decimal := Nat.isDigit_of_mem_toDigits (by omega) (by omega) inside
  simpa [Char.isDigit, isDigit, Char.le_def] using decimal

theorem ne_of_isDigit {c d : Char} (decimal : isDigit c = true) (other : isDigit d = false) :
    c ≠ d := by
  rintro rfl
  rw [decimal] at other
  cases other

theorem isSpace_of_isDigit {c : Char} (decimal : isDigit c = true) : isSpace c = false := by
  have others : [' ', '\t', '\n', '\r'].all (! isDigit ·) = true := by decide
  have apart : ∀ d ∈ [' ', '\t', '\n', '\r'], c ≠ d := by
    intro d space
    apply ne_of_isDigit decimal
    simpa using List.all_eq_true.mp others d space
  simpa [isSpace, and_assoc] using apart

theorem decimalValue_repr (n : Nat) : decimalValue (Nat.repr n).toList = n := by
  have value : Nat.ofDigitChars 10 (Nat.toDigits 10 n) 0 = n :=
    Nat.ofDigitChars_toDigits (by omega) (by omega)
  have step : (fun m c => 10 * m + (Char.toNat c - '0'.toNat)) =
      fun m c => m * 10 + Text.digit c := by
    funext m c
    rw [Nat.mul_comm]
    rfl
  rwa [Nat.ofDigitChars, step, ← Nat.toList_repr] at value

theorem head?_toDigits_ne_zero {n : Nat} (positive : 0 < n) :
    (Nat.toDigits 10 n).head? ≠ some '0' := by
  induction n using Nat.strongRecOn with
  | ind n ih =>
    by_cases small : n < 10
    · have digits : ∀ d < 10, 0 < d → d.digitChar ≠ '0' := by decide
      rw [Nat.toDigits_of_lt_base small]
      simpa using digits n small positive
    · have front := ih (n / 10) (by omega) (by omega)
      obtain ⟨d, ds, digits⟩ :=
        List.exists_cons_of_ne_nil (Nat.toDigits_ne_nil (n := n / 10) (b := 10))
      rw [digits] at front
      rw [Nat.toDigits_of_base_le (by omega) (by omega), digits]
      exact front

theorem no_leading_zero (n : Nat) :
    ¬ ((Nat.repr n).toList.head? = some '0' ∧ 1 < (Nat.repr n).toList.length) := by
  rw [Nat.toList_repr]
  rintro ⟨zero, long⟩
  rcases Nat.eq_zero_or_pos n with rfl | positive
  · rw [Nat.toDigits_of_lt_base (by omega)] at long
    exact absurd long (by decide)
  · exact head?_toDigits_ne_zero positive zero

theorem Apart.head? {rest : List Char} (apart : Apart rest) {c : Char}
    (first : c ∈ rest.head?) : isDigit c = false ∧ c ≠ '.' ∧ c ≠ 'e' ∧ c ≠ 'E' := by
  have spaces : ∀ d, isSpace d = true → d = ' ' ∨ d = '\t' ∨ d = '\n' ∨ d = '\r' := by
    intro d space
    simpa [isSpace, or_assoc] using space
  rcases apart c first with space | rfl | rfl | rfl
  · rcases spaces c space with rfl | rfl | rfl | rfl <;> decide
  all_goals decide

theorem readNatural_repr (n : Nat) {rest : List Char} (apart : Apart rest) :
    readNatural ((Nat.repr n).toList ++ rest) = .ok (n, rest) := by
  have digits : ∀ c ∈ (Nat.repr n).toList, isDigit c = true := fun _ => isDigit_of_mem_repr
  have stop : rest.takeWhile isDigit = [] ∧ rest.dropWhile isDigit = rest := by
    cases rest with
    | nil => exact ⟨rfl, rfl⟩
    | cons c r => simp [(apart.head? (c := c) rfl).1]
  have taken : ((Nat.repr n).toList ++ rest).takeWhile isDigit = (Nat.repr n).toList := by
    rw [List.takeWhile_append_of_pos digits, stop.1, List.append_nil]
  have dropped : ((Nat.repr n).toList ++ rest).dropWhile isDigit = rest := by
    rw [List.dropWhile_append_of_pos digits, stop.2]
  simp only [readNatural, taken, dropped, if_neg (no_leading_zero n), decimalValue_repr]
  split
  · rename_i point
    exact absurd rfl (apart.head? point).2.1
  · rename_i exponent
    exact absurd rfl (apart.head? exponent).2.2.1
  · rename_i exponent
    exact absurd rfl (apart.head? exponent).2.2.2
  · rfl

end Numbers

section Members

variable {item : List Char → Reading Value} {write : Value → List Char}

def memberText (write : Value → List Char) (f : String × Value) : List Char :=
  stringText f.1 ++ [':', ' '] ++ write f.2

theorem Value.charsOfFields_eq_map (indent depth : Nat) (fs : List (String × Value)) :
    Value.charsOfFields indent depth fs = fs.map (memberText (Value.chars indent depth)) := by
  induction fs with
  | nil => rfl
  | cons f fs ih =>
    obtain ⟨k, v⟩ := f
    rw [Value.charsOfFields, ih, List.map_cons, memberText]

theorem readMembers_end {n : Nat} {seen : List (String × Value)} {close : List Char}
    (blank : close.all isSpace = true) (rest : List Char) :
    readMembers item (n + 1) seen (close ++ '\x7d' :: rest) = .ok (seen.reverse, rest) := by
  simp only [readMembers, nextKey_end blank, endObject_end blank, bind, Except.bind, pure,
    Except.pure]

theorem readMembers_next {n : Nat} {seen : List (String × Value)} {first : Bool}
    {s r r' : List Char} {k : String} {v : Value} (place : seen.isEmpty = first)
    (next : nextKey first s = .ok (some (k, ':' :: ' ' :: r)))
    (read : item (' ' :: r) = .ok (v, r')) :
    readMembers item (n + 1) seen s = readMembers item n ((k, v) :: seen) r' := by
  simp only [readMembers, place, next, readColon_append, read, bind, Except.bind]

theorem readMembers_more {lead close : List Char} (blank : lead.all isSpace = true)
    (blankClose : close.all isSpace = true) {fs : List (String × Value)}
    (reads : ∀ f ∈ fs, ∀ rest, Apart rest → item (' ' :: (write f.2 ++ rest)) = .ok (f.2, rest))
    {fuel : Nat} (enough : fs.length < fuel) {seen : List (String × Value)}
    (later : seen.isEmpty = false) (rest : List Char) :
    readMembers item fuel seen
        (moreMembers lead (fs.map (memberText write)) ++ (close ++ '\x7d' :: rest)) =
      .ok (seen.reverse ++ fs, rest) := by
  induction fs generalizing fuel seen with
  | nil =>
    obtain ⟨n, rfl⟩ := Nat.exists_eq_add_one.mpr (Nat.zero_lt_of_lt enough)
    rw [List.append_nil]
    exact readMembers_end blankClose rest
  | cons f fs ih =>
    obtain ⟨n, rfl⟩ := Nat.exists_eq_add_one.mpr (Nat.zero_lt_of_lt enough)
    have apart := apart_moreMembers (apart_close blankClose (.inr rfl) rest) lead
      (fs.map (memberText write))
    have shape : moreMembers lead ((f :: fs).map (memberText write)) ++ (close ++ '\x7d' :: rest) =
        ',' :: (lead ++ (stringText f.1 ++ ':' :: ' ' :: (write f.2 ++
          (moreMembers lead (fs.map (memberText write)) ++ (close ++ '\x7d' :: rest))))) := by
      simp [moreMembers, memberText]
    rw [shape, readMembers_next later (nextKey_later blank _ _)
        (reads f List.mem_cons_self _ apart),
      ih (fun g inside => reads g (List.mem_cons_of_mem _ inside)) (Nat.lt_of_succ_lt_succ enough)
        List.isEmpty_cons]
    simp

theorem readMembers_bracketed (indent depth : Nat) {fs : List (String × Value)}
    (reads : ∀ f ∈ fs, ∀ rest, Apart rest → item (' ' :: (write f.2 ++ rest)) = .ok (f.2, rest))
    (rest : List Char) :
    ∃ r, bracketed '\x7b' '\x7d' indent depth (fs.map (memberText write)) ++ rest = '\x7b' :: r ∧
      readMembers item (r.length + 1) [] r = .ok (fs, rest) := by
  rcases fs with _ | ⟨f, fs⟩
  · exact ⟨'\x7d' :: rest, rfl, readMembers_end List.all_nil rest⟩
  · have blank := lineStart_isSpace (indent * (depth + 1))
    have blankClose := lineStart_isSpace (indent * depth)
    rw [List.map_cons, bracketed_cons]
    generalize '\n' :: spaces (indent * (depth + 1)) = lead at blank
    generalize '\n' :: spaces (indent * depth) = close at blankClose
    let later := moreMembers lead (fs.map (memberText write)) ++ (close ++ '\x7d' :: rest)
    refine ⟨lead ++ (stringText f.1 ++ ':' :: ' ' :: (write f.2 ++ later)), ?_, ?_⟩
    · simp [memberText, later]
    · have apart := apart_moreMembers (apart_close blankClose (.inr rfl) rest) lead
        (fs.map (memberText write))
      rw [readMembers_next List.isEmpty_nil (nextKey_first blank _ _)
        (reads f List.mem_cons_self _ apart)]
      apply readMembers_more blank blankClose
      · exact fun g inside => reads g (List.mem_cons_of_mem _ inside)
      · have more := length_le_moreMembers lead (fs.map (memberText write))
        simp only [List.length_map] at more
        simp only [List.length_append, List.length_cons, later]
        omega
      · rfl

end Members

theorem readWord_append (word rest : List Char) : readWord word (word ++ rest) = .ok rest := by
  induction word with
  | nil => rw [List.nil_append, readWord]
  | cons w word ih => rw [List.cons_append, readWord, if_pos rfl, ih]

theorem readValue_space (n : Nat) (s : List Char) : readValue n (' ' :: s) = readValue n s := by
  cases n with
  | zero => rfl
  | succ n =>
    rw [readValue, readValue, skipSpace, List.dropWhile_cons_of_pos (by decide), skipSpace]

theorem readValue_number {n m : Nat} {c : Char} {r rest : List Char} (decimal : isDigit c = true)
    (read : readNatural (c :: r) = .ok (m, rest)) :
    readValue (n + 1) (c :: r) = .ok (.number m, rest) := by
  have other : ∀ d, isDigit d = false → c ≠ d := fun _ => ne_of_isDigit decimal
  rw [readValue, skipSpace_cons (isSpace_of_isDigit decimal)]
  simp only [other 't' (by decide), other 'f' (by decide), other '"' (by decide),
    other '[' (by decide), other '\x7b' (by decide), decimal, read, if_true, if_false, Except.map]

theorem readValue_list {n : Nat} {vs : List Value} {r rest : List Char}
    (read : readList (readValue n) ('[' :: r) = .ok (vs, rest)) :
    readValue (n + 1) ('[' :: r) = .ok (.list vs, rest) := by
  rw [readValue, skipSpace_cons (by decide)]
  simp only [(by decide : ¬ '[' = 't'), (by decide : ¬ '[' = 'f'), (by decide : ¬ '[' = '"'), read,
    if_true, if_false, Except.map]

theorem readValue_object {n : Nat} {fs : List (String × Value)} {r rest : List Char}
    (read : readMembers (readValue n) (r.length + 1) [] r = .ok (fs, rest)) :
    readValue (n + 1) ('\x7b' :: r) = .ok (.object fs, rest) := by
  rw [readValue, skipSpace_cons (by decide)]
  simp only [(by decide : ¬ '\x7b' = 't'), (by decide : ¬ '\x7b' = 'f'),
    (by decide : ¬ '\x7b' = '"'), (by decide : ¬ '\x7b' = '['), read, if_true, if_false, Except.map]

theorem exists_bracketed_eq_cons (opening closing : Char) (indent depth : Nat)
    (ms : List (List Char)) : ∃ r, bracketed opening closing indent depth ms = opening :: r := by
  cases ms with
  | nil => exact ⟨_, rfl⟩
  | cons m ms => exact ⟨_, bracketed_cons _ _ _ _ _ _⟩

theorem exists_repr_eq_cons (n : Nat) :
    ∃ c r, (Nat.repr n).toList = c :: r ∧ isDigit c = true := by
  obtain ⟨c, r, digits⟩ := List.exists_cons_of_ne_nil (Nat.toDigits_ne_nil (n := n) (b := 10))
  rw [← Nat.toList_repr] at digits
  exact ⟨c, r, digits, isDigit_of_mem_repr (digits ▸ List.mem_cons_self)⟩

theorem chars_solid (indent depth : Nat) (v : Value) :
    ∃ c r, v.chars indent depth = c :: r ∧ isSpace c = false ∧ c ≠ ']' := by
  cases v with
  | bool b => cases b <;> exact ⟨_, _, rfl, by decide, by decide⟩
  | string s => exact ⟨_, _, rfl, by decide, by decide⟩
  | number n =>
    obtain ⟨c, r, digits, decimal⟩ := exists_repr_eq_cons n
    exact ⟨c, r, digits, isSpace_of_isDigit decimal, ne_of_isDigit decimal (by decide)⟩
  | list vs =>
    obtain ⟨r, first⟩ := exists_bracketed_eq_cons '[' ']' indent depth
      (Value.charsOfAll indent (depth + 1) vs)
    exact ⟨'[', r, first, by decide, by decide⟩
  | object fs =>
    obtain ⟨r, first⟩ := exists_bracketed_eq_cons '\x7b' '\x7d' indent depth
      (Value.charsOfFields indent (depth + 1) fs)
    exact ⟨'\x7b', r, first, by decide, by decide⟩

-- Induction on the fuel: what is nested in a value is shorter than the value.
theorem readValue_chars {n : Nat} (indent : Nat) {depth : Nat} {v : Value}
    (enough : (v.chars indent depth).length ≤ n) {rest : List Char} (apart : Apart rest) :
    readValue n (v.chars indent depth ++ rest) = .ok (v, rest) := by
  induction n generalizing depth v rest with
  | zero =>
    obtain ⟨c, r, text, -⟩ := chars_solid indent depth v
    rw [text] at enough
    exact absurd enough (by simp)
  | succ n ih =>
    cases v with
    | bool b =>
      rw [Value.chars]
      cases b with
      | true =>
        change (readWord ['r', 'u', 'e'] (['r', 'u', 'e'] ++ rest)).map _ = _
        rw [readWord_append]
        rfl
      | false =>
        change (readWord ['a', 'l', 's', 'e'] (['a', 'l', 's', 'e'] ++ rest)).map _ = _
        rw [readWord_append]
        rfl
    | string s =>
      rw [Value.chars, stringText_append]
      change (readText (escape s.toList ++ '"' :: rest)).map _ = _
      rw [readText_escape]
      rfl
    | number m =>
      obtain ⟨c, r, digits, decimal⟩ := exists_repr_eq_cons m
      have read := readNatural_repr m apart
      rw [digits] at read
      rw [Value.chars, digits]
      exact readValue_number decimal read
    | list vs =>
      rw [Value.chars, Value.charsOfAll_eq_map] at enough ⊢
      have members : ∀ w ∈ vs, Reads (readValue n) (w.chars indent (depth + 1)) w := by
        intro w inside
        refine ⟨chars_solid indent (depth + 1) w, fun rest apart => ih ?_ apart⟩
        have shorter := length_lt_bracketed '[' ']' indent depth
          (List.mem_map_of_mem (f := Value.chars indent (depth + 1)) inside)
        omega
      have read := readList_append List.all_nil indent depth members rest
      obtain ⟨r, first⟩ := exists_bracketed_eq_cons '[' ']' indent depth
        (vs.map (Value.chars indent (depth + 1)))
      rw [List.nil_append, first] at read
      rw [first]
      exact readValue_list read
    | object fs =>
      rw [Value.chars, Value.charsOfFields_eq_map] at enough ⊢
      have members : ∀ f ∈ fs, ∀ rest, Apart rest →
          readValue n (' ' :: (f.2.chars indent (depth + 1) ++ rest)) = .ok (f.2, rest) := by
        intro f inside rest apart
        rw [readValue_space]
        apply ih _ apart
        have shorter := length_lt_bracketed '\x7b' '\x7d' indent depth
          (List.mem_map_of_mem (f := memberText (Value.chars indent (depth + 1))) inside)
        simp only [memberText, List.length_append] at shorter
        omega
      obtain ⟨r, first, read⟩ := readMembers_bracketed indent depth members rest
      rw [first]
      exact readValue_object read

theorem Value.ofText_text (indent : Nat) (v : Value) : Value.ofText (v.text indent) = .ok v := by
  have nothing : Apart [] := by
    intro c first
    cases first
  have enough : (v.chars indent 0).length ≤ (v.text indent).length + 1 := by
    rw [Value.text, String.length_ofList]
    omega
  have read := readValue_chars indent enough nothing
  rw [List.append_nil] at read
  rw [Value.ofText, Value.text, String.toList_ofList, ← Value.text, read]
  rfl

end XmlDelta.Json
