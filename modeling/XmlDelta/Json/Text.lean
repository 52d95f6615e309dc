import XmlDelta.Json.Fault
import XmlDelta.Text.Digit
import XmlDelta.Text.Utf8

set_option autoImplicit false

namespace XmlDelta.Json

open XmlDelta.Text (hexDigit hexValue)

def isSpace (c : Char) : Bool :=
  c = ' ' || c = '\t' || c = '\n' || c = '\r'

def skipSpace (s : List Char) : List Char :=
  s.dropWhile isSpace

def escapeChar (c : Char) : List Char :=
  if c = '"' then ['\\', '"']
  else if c = '\\' then ['\\', '\\']
  else if c = '\n' then ['\\', 'n']
  else if c = '\r' then ['\\', 'r']
  else if c = '\t' then ['\\', 't']
  else if c.toNat = 8 then ['\\', 'b']
  else if c.toNat = 12 then ['\\', 'f']
  else if c.toNat < 32 then ['\\', 'u', '0', '0', hexDigit (c.toNat / 16), hexDigit (c.toNat % 16)]
  else [c]

def escape (cs : List Char) : List Char :=
  cs.flatMap escapeChar

def stringText (s : String) : List Char :=
  '"' :: escape s.toList ++ ['"']

def readHex4 (s : List Char) : Reading Nat :=
  -- The value of four hexadecimal digits; a text of fewer than four bytes has ended too early.
  let early : Fault :=
    if (Text.Utf8.encode (s.take 4)).length < 4 then .eofString else .invalidEscape
  match s with
  | a :: b :: c :: d :: r =>
    match hexValue a, hexValue b, hexValue c, hexValue d with
    | some a, some b, some c, some d => .ok (((a * 16 + b) * 16 + c) * 16 + d, r)
    | _, _, _, _ => .error early
  | _ => .error early

theorem readHex4_length {s r : List Char} {n : Nat} (h : readHex4 s = .ok (n, r)) :
    r.length < s.length := by
  unfold readHex4 at h
  simp only at h
  split at h
  · split at h
    · simp only [Except.ok.injEq, Prod.mk.injEq] at h
      rw [← h.2]
      simp only [List.length_cons]
      omega
    · cases h
  · cases h

def readTrail (high : Nat) (s : List Char) : Reading Char :=
  match s with
  | [] => .error .eofString
  | ['\\'] => .error .eofString
  | '\\' :: 'u' :: r =>
    match readHex4 r with
    | .error f => .error f
    | .ok (low, r) =>
      if 0xDC00 ≤ low && low ≤ 0xDFFF then
        .ok (Char.ofNat (0x10000 + (high - 0xD800) * 0x400 + (low - 0xDC00)), r)
      else .error .loneSurrogate
  | _ => .error .hexEscapeEnd

def readUnicode (s : List Char) : Reading Char :=
  match readHex4 s with
  | .error f => .error f
  | .ok (n, r) =>
    if 0xDC00 ≤ n && n ≤ 0xDFFF then .error .loneSurrogate
    else if 0xD800 ≤ n && n ≤ 0xDBFF then readTrail n r
    else .ok (Char.ofNat n, r)

def simpleEscape (c : Char) : Option Char :=
  if c = '"' || c = '\\' || c = '/' then some c
  else if c = 'b' then some (Char.ofNat 8)
  else if c = 'f' then some (Char.ofNat 12)
  else if c = 'n' then some '\n'
  else if c = 'r' then some '\r'
  else if c = 't' then some '\t'
  else none

def readEscape (s : List Char) : Reading Char :=
  match s with
  | [] => .error .eofString
  | c :: r =>
    if c = 'u' then readUnicode r
    else
      match simpleEscape c with
      | some d => .ok (d, r)
      | none => .error .invalidEscape

theorem readTrail_length {n : Nat} {s r : List Char} {c : Char} (h : readTrail n s = .ok (c, r)) :
    r.length < s.length := by
  unfold readTrail at h
  split at h
  · cases h
  · cases h
  · split at h
    · cases h
    · rename_i hx
      have := readHex4_length hx
      split at h
      · simp only [Except.ok.injEq, Prod.mk.injEq] at h
        rw [← h.2]
        simp only [List.length_cons]
        omega
      · cases h
  · cases h

theorem readUnicode_length {s r : List Char} {c : Char} (h : readUnicode s = .ok (c, r)) :
    r.length < s.length := by
  unfold readUnicode at h
  split at h
  · cases h
  · rename_i hx
    have h4 := readHex4_length hx
    split at h
    · cases h
    · split at h
      · have := readTrail_length h
        omega
      · simp only [Except.ok.injEq, Prod.mk.injEq] at h
        rw [← h.2]
        exact h4

theorem readEscape_length {s r : List Char} {c : Char} (h : readEscape s = .ok (c, r)) :
    r.length < s.length := by
  unfold readEscape at h
  split at h
  · cases h
  · split at h
    · have := readUnicode_length h
      simp only [List.length_cons]
      omega
    · split at h
      · simp only [Except.ok.injEq, Prod.mk.injEq] at h
        rw [← h.2]
        simp
      · cases h

def readTextFrom (seen : List Char) (s : List Char) : Reading String :=
  match s with
  | [] => .error .eofString
  | c :: r =>
    if c = '"' then .ok (String.ofList seen.reverse, r)
    else if c = '\\' then
      match _h : readEscape r with
      | .error f => .error f
      | .ok (d, r') => readTextFrom (d :: seen) r'
    else if c.toNat < 32 then .error .controlCharacter
    else readTextFrom (c :: seen) r
termination_by s.length
decreasing_by
  · have := readEscape_length _h
    simp only [List.length_cons]
    omega
  · simp

def readText (s : List Char) : Reading String :=
  readTextFrom [] s

def skipText (s : List Char) : Except Fault (List Char) :=
  -- Passes over the rest of a string whose value does not matter; lone surrogates may stand.
  match s with
  | [] => .error .eofString
  | c :: r =>
    if c = '"' then .ok r
    else if c = '\\' then
      match r with
      | [] => .error .eofString
      | e :: t =>
        if e = 'u' then
          match _h : readHex4 t with
          | .error f => .error f
          | .ok (_, t') => skipText t'
        else if (simpleEscape e).isSome then skipText t
        else .error .invalidEscape
    else if c.toNat < 32 then .error .controlCharacter
    else skipText r
termination_by s.length
decreasing_by
  · have := readHex4_length _h
    simp only [List.length_cons]
    omega
  · simp only [List.length_cons]
    omega
  · simp

end XmlDelta.Json
