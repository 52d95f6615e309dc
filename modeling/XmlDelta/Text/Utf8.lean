set_option autoImplicit false

namespace XmlDelta.Text.Utf8

def encodeChar (c : Char) : List UInt8 :=
  let n := c.toNat
  if n < 0x80 then [n.toUInt8]
  else if n < 0x800 then [(0xC0 + n / 64).toUInt8, (0x80 + n % 64).toUInt8]
  else if n < 0x10000 then
    [(0xE0 + n / 4096).toUInt8, (0x80 + n / 64 % 64).toUInt8, (0x80 + n % 64).toUInt8]
  else
    [(0xF0 + n / 262144).toUInt8, (0x80 + n / 4096 % 64).toUInt8, (0x80 + n / 64 % 64).toUInt8,
      (0x80 + n % 64).toUInt8]

def encode (cs : List Char) : List UInt8 :=
  cs.flatMap encodeChar

theorem encode_append (xs ys : List Char) : encode (xs ++ ys) = encode xs ++ encode ys := by
  simp [encode]

def width (c : Char) : Nat :=
  (encodeChar c).length

def isTail (b : UInt8) : Bool :=
  0x80 ≤ b && b ≤ 0xBF

def scalar (n : Nat) : Char :=
  Char.ofNat n

def pair (a b : UInt8) : Option Char :=
  if 0xC2 ≤ a && a ≤ 0xDF && isTail b then
    some (scalar ((a.toNat - 0xC0) * 64 + (b.toNat - 0x80)))
  else none

def triple (a b c : UInt8) : Option Char :=
  if 0xE0 ≤ a && a ≤ 0xEF && isTail b && isTail c &&
      (a != 0xE0 || 0xA0 ≤ b) && (a != 0xED || b ≤ 0x9F) then
    some (scalar ((a.toNat - 0xE0) * 4096 + (b.toNat - 0x80) * 64 + (c.toNat - 0x80)))
  else none

def quadruple (a b c d : UInt8) : Option Char :=
  if 0xF0 ≤ a && a ≤ 0xF4 && isTail b && isTail c && isTail d &&
      (a != 0xF0 || 0x90 ≤ b) && (a != 0xF4 || b ≤ 0x8F) then
    some (scalar ((a.toNat - 0xF0) * 262144 + (b.toNat - 0x80) * 4096 +
      (c.toNat - 0x80) * 64 + (d.toNat - 0x80)))
  else none

def next : List UInt8 → Option (Char × List UInt8)
  | [] => none
  | a :: r =>
    if a < 0x80 then some (scalar a.toNat, r)
    else if a < 0xE0 then
      match r with
      | b :: r => (pair a b).map (·, r)
      | _ => none
    else if a < 0xF0 then
      match r with
      | b :: c :: r => (triple a b c).map (·, r)
      | _ => none
    else
      match r with
      | b :: c :: d :: r => (quadruple a b c d).map (·, r)
      | _ => none

theorem next_length {s r : List UInt8} {c : Char} (h : next s = some (c, r)) :
    r.length < s.length := by
  match s with
  | [] => simp [next] at h
  | a :: t =>
    simp only [next] at h
    split at h
    · simp only [Option.some.injEq, Prod.mk.injEq] at h
      simp [← h.2]
    · split at h
      · split at h
        · simp only [Option.map_eq_some_iff, Prod.mk.injEq] at h
          obtain ⟨_, _, _, rfl⟩ := h
          simp only [List.length_cons]
          omega
        · cases h
      · split at h
        · split at h
          · simp only [Option.map_eq_some_iff, Prod.mk.injEq] at h
            obtain ⟨_, _, _, rfl⟩ := h
            simp only [List.length_cons]
            omega
          · cases h
        · split at h
          · simp only [Option.map_eq_some_iff, Prod.mk.injEq] at h
            obtain ⟨_, _, _, rfl⟩ := h
            simp only [List.length_cons]
            omega
          · cases h

def decodeFrom (seen : List Char) (s : List UInt8) : Option (List Char) :=
  match s with
  | [] => some seen.reverse
  | a :: t =>
    match _h : next (a :: t) with
    | none => none
    | some (c, r) => decodeFrom (c :: seen) r
termination_by s.length
decreasing_by exact next_length _h

def decode (s : List UInt8) : Option (List Char) :=
  decodeFrom [] s

end XmlDelta.Text.Utf8
