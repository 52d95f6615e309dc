import XmlDelta.Text.Digit
import XmlDelta.Toml.Fault
import XmlDelta.Toml.Space

set_option autoImplicit false

namespace XmlDelta.Toml

open XmlDelta.Text

def readHex (count value : Nat) (s : List Char) : Option (Nat × List Char) :=
  match count with
  | 0 => some (value, s)
  | n + 1 =>
    match s with
    | [] => none
    | c :: r => (hexValue c).bind fun d => readHex n (value * 16 + d) r

def scalar? (n : Nat) : Option Char :=
  if n.isValidChar then some (Char.ofNat n) else none

def simpleEscape (c : Char) : Option Char :=
  if c = 'b' then some (Char.ofNat 8)
  else if c = 't' then some '\t'
  else if c = 'n' then some '\n'
  else if c = 'f' then some (Char.ofNat 12)
  else if c = 'r' then some '\r'
  else if c = 'e' then some (Char.ofNat 27)
  else if c = '"' || c = '\\' then some c
  else none

def escapeDigits (c : Char) : Option Nat :=
  if c = 'x' then some 2
  else if c = 'u' then some 4
  else if c = 'U' then some 8
  else none

def readEscape (s : List Char) : Option (Char × List Char) :=
  match s with
  | [] => none
  | c :: r =>
    match escapeDigits c with
    | some n => (readHex n 0 r).bind fun (v, t) => (scalar? v).map (·, t)
    | none => (simpleEscape c).map (·, r)

theorem readHex_length {count value n : Nat} {s r : List Char}
    (h : readHex count value s = some (n, r)) : r.length ≤ s.length := by
  induction count generalizing value s with
  | zero => simp_all [readHex]
  | succ k ih =>
    cases s with
    | nil => simp [readHex] at h
    | cons c t =>
      simp only [readHex, Option.bind_eq_some_iff] at h
      obtain ⟨d, _, h⟩ := h
      have := ih h
      simp only [List.length_cons]
      omega

theorem readEscape_length {s r : List Char} {c : Char} (h : readEscape s = some (c, r)) :
    r.length < s.length := by
  cases s with
  | nil => simp [readEscape] at h
  | cons d t =>
    simp only [readEscape] at h
    split at h
    · simp only [Option.bind_eq_some_iff, Option.map_eq_some_iff, Prod.mk.injEq] at h
      obtain ⟨⟨v, u⟩, hv, _, _, _, rfl⟩ := h
      have := readHex_length hv
      simp only [List.length_cons]
      omega
    · simp only [Option.map_eq_some_iff, Prod.mk.injEq] at h
      obtain ⟨_, _, _, rfl⟩ := h
      simp

def dropBreaks : List Char → List Char
  | [] => []
  | c :: r =>
    if c = '\n' || isBlank c || (c = '\r' && startsLine r) then dropBreaks r else c :: r

def skipFold (s : List Char) : Option (List Char) :=
  (lineEnd? (skipBlanks s)).map dropBreaks

theorem dropBreaks_length (s : List Char) : (dropBreaks s).length ≤ s.length := by
  induction s with
  | nil => simp [dropBreaks]
  | cons c r ih =>
    simp only [dropBreaks]
    split
    · simp only [List.length_cons]
      omega
    · exact Nat.le_refl _

theorem lineEnd?_length {s r : List Char} (h : lineEnd? s = some r) : r.length < s.length := by
  unfold lineEnd? at h
  split at h
  · cases h
    simp
  · cases h
    simp only [List.length_cons]
    omega
  · cases h

theorem skipFold_length {s r : List Char} (h : skipFold s = some r) : r.length < s.length := by
  simp only [skipFold, Option.map_eq_some_iff] at h
  obtain ⟨t, ht, rfl⟩ := h
  have h1 := lineEnd?_length ht
  have h2 := dropBreaks_length t
  have h3 : (skipBlanks s).length ≤ s.length := (List.dropWhile_suffix isBlank).length_le
  omega

def readLiteral (seen : List Char) : List Char → Except Fault (String × List Char)
  | [] => .error .unclosedString
  | c :: r =>
    if c = '\'' then .ok (String.ofList seen.reverse, r)
    else if isPlain c then readLiteral (c :: seen) r
    else .error .badCharacter

def readBasic (seen s : List Char) : Except Fault (String × List Char) :=
  match s with
  | [] => .error .unclosedString
  | c :: r =>
    if c = '"' then .ok (String.ofList seen.reverse, r)
    else if c = '\\' then
      match _h : readEscape r with
      | none => .error .badEscape
      | some (d, t) => readBasic (d :: seen) t
    else if isPlain c then readBasic (c :: seen) r
    else .error .badCharacter
termination_by s.length
decreasing_by
  · have := readEscape_length _h
    simp only [List.length_cons]
    omega
  · simp

def closing? (q : Char) (s : List Char) : Option (Nat × List Char) :=
  if (s.take 3) = [q, q, q] then
    let extra := ((s.drop 3).take 2).takeWhile (· = q)
    some (extra.length, s.drop (3 + extra.length))
  else none

def isPlainOrLine (c : Char) (r : List Char) : Bool :=
  isPlain c || c = '\n' || (c = '\r' && startsLine r)

def readLongLiteral (seen : List Char) : List Char → Except Fault (String × List Char)
  | [] => .error .unclosedString
  | c :: r =>
    match closing? '\'' (c :: r) with
    | some (n, t) => .ok (String.ofList (List.replicate n '\'' ++ seen).reverse, t)
    | none =>
      if isPlainOrLine c r then readLongLiteral (c :: seen) r else .error .badCharacter

def readLongBasic (seen s : List Char) : Except Fault (String × List Char) :=
  match s with
  | [] => .error .unclosedString
  | c :: r =>
    match closing? '"' (c :: r) with
    | some (n, t) => .ok (String.ofList (List.replicate n '"' ++ seen).reverse, t)
    | none =>
      if c = '\\' then
        match _h : skipFold r with
        | some t => readLongBasic seen t
        | none =>
          match _h' : readEscape r with
          | none => .error .badEscape
          | some (d, t) => readLongBasic (d :: seen) t
      else if isPlainOrLine c r then readLongBasic (c :: seen) r
      else .error .badCharacter
termination_by s.length
decreasing_by
  · have := skipFold_length _h
    simp only [List.length_cons]
    omega
  · have := readEscape_length _h'
    simp only [List.length_cons]
    omega
  · simp

def dropFirstLineEnd (s : List Char) : List Char :=
  -- A line end right behind an opening triple quote is no part of the string.
  (lineEnd? s).getD s

def readString? (long : Bool) (s : List Char) : Option (Except Fault (String × List Char)) :=
  match s with
  | '"' :: r =>
    if long && r.take 2 = ['"', '"'] then some (readLongBasic [] (dropFirstLineEnd (r.drop 2)))
    else some (readBasic [] r)
  | '\'' :: r =>
    if long && r.take 2 = ['\'', '\''] then
      some (readLongLiteral [] (dropFirstLineEnd (r.drop 2)))
    else some (readLiteral [] r)
  | _ => none

end XmlDelta.Toml
