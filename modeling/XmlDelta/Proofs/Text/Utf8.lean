import XmlDelta.Text.Utf8

set_option autoImplicit false

namespace XmlDelta.Text.Utf8

theorem toNat_toUInt8 {n : Nat} (small : n < 256) : n.toUInt8.toNat = n := by
  rw [Nat.toUInt8, UInt8.toNat_ofNat']
  omega

theorem isTail_toUInt8 {n : Nat} (small : n < 64) : isTail (0x80 + n).toUInt8 = true := by
  have byte : (0x80 + n).toUInt8.toNat = 0x80 + n := toNat_toUInt8 (by omega)
  simp only [isTail, Bool.and_eq_true, decide_eq_true_eq, UInt8.le_iff_toNat_le, byte]
  exact ⟨Nat.le_add_right 0x80 n, by change 0x80 + n ≤ 0xBF; omega⟩

theorem pair_encoded {n : Nat} (low : 0x80 ≤ n) (high : n < 0x800) :
    pair (0xC0 + n / 64).toUInt8 (0x80 + n % 64).toUInt8 = some (scalar n) := by
  have a : (0xC0 + n / 64).toUInt8.toNat = 0xC0 + n / 64 := toNat_toUInt8 (by omega)
  have b : (0x80 + n % 64).toUInt8.toNat = 0x80 + n % 64 := toNat_toUInt8 (by omega)
  have tail := isTail_toUInt8 (n := n % 64) (by omega)
  rw [pair, if_pos]
  · rw [a, b]
    exact congrArg (fun m => some (scalar m)) (by omega)
  · simp only [tail, Bool.and_true, Bool.and_eq_true, decide_eq_true_eq, UInt8.le_iff_toNat_le, a]
    change 0xC2 ≤ 0xC0 + n / 64 ∧ 0xC0 + n / 64 ≤ 0xDF
    omega

theorem triple_encoded {n : Nat} (low : 0x800 ≤ n) (high : n < 0x10000)
    (scalarValue : n < 0xD800 ∨ 0xDFFF < n) :
    triple (0xE0 + n / 4096).toUInt8 (0x80 + n / 64 % 64).toUInt8 (0x80 + n % 64).toUInt8 =
      some (scalar n) := by
  have a : (0xE0 + n / 4096).toUInt8.toNat = 0xE0 + n / 4096 := toNat_toUInt8 (by omega)
  have b : (0x80 + n / 64 % 64).toUInt8.toNat = 0x80 + n / 64 % 64 := toNat_toUInt8 (by omega)
  have c : (0x80 + n % 64).toUInt8.toNat = 0x80 + n % 64 := toNat_toUInt8 (by omega)
  have tailB := isTail_toUInt8 (n := n / 64 % 64) (by omega)
  have tailC := isTail_toUInt8 (n := n % 64) (by omega)
  rw [triple, if_pos]
  · rw [a, b, c]
    exact congrArg (fun m => some (scalar m)) (by omega)
  · simp only [tailB, tailC, Bool.and_true, Bool.and_eq_true, Bool.or_eq_true, bne_iff_ne,
      decide_eq_true_eq, UInt8.le_iff_toNat_le, ne_eq, ← UInt8.toNat_inj, a, b]
    change ((0xE0 ≤ 0xE0 + n / 4096 ∧ 0xE0 + n / 4096 ≤ 0xEF) ∧
      (¬ 0xE0 + n / 4096 = 0xE0 ∨ 0xA0 ≤ 0x80 + n / 64 % 64)) ∧
        (¬ 0xE0 + n / 4096 = 0xED ∨ 0x80 + n / 64 % 64 ≤ 0x9F)
    omega

theorem quadruple_encoded {n : Nat} (low : 0x10000 ≤ n) (high : n < 0x110000) :
    quadruple (0xF0 + n / 262144).toUInt8 (0x80 + n / 4096 % 64).toUInt8
      (0x80 + n / 64 % 64).toUInt8 (0x80 + n % 64).toUInt8 = some (scalar n) := by
  have a : (0xF0 + n / 262144).toUInt8.toNat = 0xF0 + n / 262144 := toNat_toUInt8 (by omega)
  have b : (0x80 + n / 4096 % 64).toUInt8.toNat = 0x80 + n / 4096 % 64 := toNat_toUInt8 (by omega)
  have c : (0x80 + n / 64 % 64).toUInt8.toNat = 0x80 + n / 64 % 64 := toNat_toUInt8 (by omega)
  have d : (0x80 + n % 64).toUInt8.toNat = 0x80 + n % 64 := toNat_toUInt8 (by omega)
  have tailB := isTail_toUInt8 (n := n / 4096 % 64) (by omega)
  have tailC := isTail_toUInt8 (n := n / 64 % 64) (by omega)
  have tailD := isTail_toUInt8 (n := n % 64) (by omega)
  rw [quadruple, if_pos]
  · rw [a, b, c, d]
    exact congrArg (fun m => some (scalar m)) (by omega)
  · simp only [tailB, tailC, tailD, Bool.and_true, Bool.and_eq_true, Bool.or_eq_true, bne_iff_ne,
      decide_eq_true_eq, UInt8.le_iff_toNat_le, ne_eq, ← UInt8.toNat_inj, a, b]
    change ((0xF0 ≤ 0xF0 + n / 262144 ∧ 0xF0 + n / 262144 ≤ 0xF4) ∧
      (¬ 0xF0 + n / 262144 = 0xF0 ∨ 0x90 ≤ 0x80 + n / 4096 % 64)) ∧
        (¬ 0xF0 + n / 262144 = 0xF4 ∨ 0x80 + n / 4096 % 64 ≤ 0x8F)
    omega

theorem toUInt8_lt {n : Nat} {b : UInt8} (small : n < 256) : n.toUInt8 < b ↔ n < b.toNat := by
  rw [UInt8.lt_iff_toNat_lt, toNat_toUInt8 small]

theorem next_encodeChar (c : Char) (r : List UInt8) :
    next (encodeChar c ++ r) = some (c, r) := by
  have back : scalar c.toNat = c := Char.ofNat_toNat c
  have valid : c.toNat < 0xD800 ∨ 0xDFFF < c.toNat ∧ c.toNat < 0x110000 := c.valid
  generalize hn : c.toNat = n at back valid
  by_cases one : n < 0x80
  · have lead : n.toUInt8 < 0x80 := (toUInt8_lt (by omega)).mpr one
    simp only [encodeChar, hn, one, if_true, List.cons_append, List.nil_append, next, lead,
      toNat_toUInt8 (n := n) (by omega), back]
  by_cases two : n < 0x800
  · have low : ¬ (0xC0 + n / 64).toUInt8 < 0x80 := by
      simp only [toUInt8_lt (n := 0xC0 + n / 64) (by omega), UInt8.reduceToNat]
      omega
    have lead : (0xC0 + n / 64).toUInt8 < 0xE0 := by
      simp only [toUInt8_lt (n := 0xC0 + n / 64) (by omega), UInt8.reduceToNat]
      omega
    simp only [encodeChar, hn, one, two, if_true, if_false, List.cons_append, List.nil_append,
      next, low, lead, pair_encoded (n := n) (by omega) two, Option.map_some, back]
  by_cases three : n < 0x10000
  · have low : ¬ (0xE0 + n / 4096).toUInt8 < 0x80 ∧ ¬ (0xE0 + n / 4096).toUInt8 < 0xE0 := by
      simp only [toUInt8_lt (n := 0xE0 + n / 4096) (by omega), UInt8.reduceToNat]
      omega
    have lead : (0xE0 + n / 4096).toUInt8 < 0xF0 := by
      simp only [toUInt8_lt (n := 0xE0 + n / 4096) (by omega), UInt8.reduceToNat]
      omega
    simp only [encodeChar, hn, one, two, three, if_true, if_false, List.cons_append,
      List.nil_append, next, low.1, low.2, lead,
      triple_encoded (n := n) (by omega) three (by omega), Option.map_some, back]
  · have low : ¬ (0xF0 + n / 262144).toUInt8 < 0x80 ∧ ¬ (0xF0 + n / 262144).toUInt8 < 0xE0 ∧
        ¬ (0xF0 + n / 262144).toUInt8 < 0xF0 := by
      simp only [toUInt8_lt (n := 0xF0 + n / 262144) (by omega), UInt8.reduceToNat]
      omega
    simp only [encodeChar, hn, one, two, three, if_false, List.cons_append, List.nil_append, next,
      low.1, low.2.1, low.2.2, quadruple_encoded (n := n) (by omega) (by omega), Option.map_some,
      back]

theorem next_of_high {b : UInt8} (high : 0xF4 < b) (r : List UInt8) : next (b :: r) = none := by
  have lead : 0xF4 < b.toNat := UInt8.lt_iff_toNat_lt.mp high
  have ranges : ¬ b < 0x80 ∧ ¬ b < 0xE0 ∧ ¬ b < 0xF0 ∧ ¬ b ≤ 0xF4 := by
    simp only [UInt8.lt_iff_toNat_lt, UInt8.le_iff_toNat_le, UInt8.reduceToNat]
    omega
  simp only [next, ranges, if_false]
  split
  · simp [quadruple, ranges]
  · rfl

theorem not_prefix_encode {b : UInt8} (high : 0xF4 < b) (r : List UInt8) (cs : List Char) :
    (b :: r).isPrefixOf (encode cs) = false := by
  refine Bool.eq_false_iff.mpr fun begins => ?_
  obtain ⟨t, bytes⟩ := List.isPrefixOf_iff_prefix.mp begins
  cases cs with
  | nil => cases bytes
  | cons c cs =>
    have first : next (encode (c :: cs)) = some (c, encode cs) := next_encodeChar c _
    rw [← bytes, List.cons_append, next_of_high high] at first
    cases first

theorem decodeFrom_of_next {seen : List Char} {s r : List UInt8} {c : Char}
    (h : next s = some (c, r)) : decodeFrom seen s = decodeFrom (c :: seen) r := by
  cases s with
  | nil => cases h
  | cons a t =>
    rw [decodeFrom]
    split
    · rename_i none
      rw [h] at none
      cases none
    · rename_i c' r' some
      rw [h] at some
      cases some
      rfl

theorem decodeFrom_encode (seen cs : List Char) :
    decodeFrom seen (encode cs) = some (seen.reverse ++ cs) := by
  induction cs generalizing seen with
  | nil =>
    rw [encode, List.flatMap_nil, decodeFrom, List.append_nil]
  | cons c cs ih =>
    have first : next (encode (c :: cs)) = some (c, encode cs) := next_encodeChar c _
    rw [decodeFrom_of_next first, ih]
    simp

theorem decode_encode (cs : List Char) : decode (encode cs) = some cs :=
  decodeFrom_encode [] cs

theorem next_append {s r : List UInt8} {c : Char} (first : next s = some (c, r))
    (t : List UInt8) : next (s ++ t) = some (c, r ++ t) := by
  cases s with
  | nil => cases first
  | cons a s =>
    rw [List.cons_append]
    simp only [next] at first ⊢
    split at first
    · rename_i one
      cases first
      rw [if_pos one]
    split at first
    · rename_i one two
      rw [if_neg one, if_pos two]
      cases s with
      | nil => cases first
      | cons b s =>
        obtain ⟨d, found, same⟩ := Option.map_eq_some_iff.mp first
        cases same
        simp [found]
    split at first
    · rename_i one two three
      rw [if_neg one, if_neg two, if_pos three]
      rcases s with _ | ⟨b, _ | ⟨c, s⟩⟩
      · cases first
      · cases first
      · obtain ⟨d, found, same⟩ := Option.map_eq_some_iff.mp first
        cases same
        simp [found]
    · rename_i one two three
      rw [if_neg one, if_neg two, if_neg three]
      rcases s with _ | ⟨b, _ | ⟨c, _ | ⟨d, s⟩⟩⟩
      · cases first
      · cases first
      · cases first
      · obtain ⟨e, found, same⟩ := Option.map_eq_some_iff.mp first
        cases same
        simp [found]

theorem decodeFrom_of_none {seen : List Char} {a : UInt8} {s : List UInt8}
    (none : next (a :: s) = none) : decodeFrom seen (a :: s) = .none := by
  rw [decodeFrom]
  split
  · rfl
  · rename_i c r first
    rw [none] at first
    cases first

theorem decodeFrom_eq_map (seen : List Char) (s : List UInt8) :
    decodeFrom seen s = (decode s).map (seen.reverse ++ ·) := by
  induction size : s.length using Nat.strongRecOn generalizing seen s with
  | ind n ih =>
    cases s with
    | nil => simp [decode, decodeFrom]
    | cons a s =>
      cases first : next (a :: s) with
      | none => rw [decode, decodeFrom_of_none first, decodeFrom_of_none first, Option.map_none]
      | some p =>
        obtain ⟨c, r⟩ := p
        have shorter : r.length < n := size ▸ next_length first
        rw [decode, decodeFrom_of_next first, decodeFrom_of_next first, ih _ shorter _ _ rfl,
          ih _ shorter [c] _ rfl, Option.map_map]
        congr 1
        funext cs
        simp

theorem decodeFrom_append {seen cs : List Char} {s : List UInt8}
    (decoded : decodeFrom seen s = some cs) (t : List UInt8) :
    decodeFrom seen (s ++ t) = decodeFrom cs.reverse t := by
  induction size : s.length using Nat.strongRecOn generalizing seen s with
  | ind n ih =>
    cases s with
    | nil =>
      rw [decodeFrom] at decoded
      cases decoded
      rw [List.reverse_reverse, List.nil_append]
    | cons a s =>
      cases first : next (a :: s) with
      | none =>
        rw [decodeFrom_of_none first] at decoded
        cases decoded
      | some p =>
        obtain ⟨c, r⟩ := p
        rw [decodeFrom_of_next first] at decoded
        rw [decodeFrom_of_next (next_append first t)]
        exact ih r.length (size ▸ next_length first) decoded rfl

theorem decode_append {s : List UInt8} {cs : List Char} (decoded : decode s = some cs)
    (t : List UInt8) : decode (s ++ t) = (decode t).map (cs ++ ·) := by
  rw [decode, decodeFrom_append decoded, decodeFrom_eq_map, List.reverse_reverse]

theorem encode_injective {xs ys : List Char} (same : encode xs = encode ys) : xs = ys := by
  have back := congrArg decode same
  rw [decode_encode, decode_encode] at back
  exact Option.some.inj back

theorem encodeChar_ascii {c : Char} (ascii : c.toNat < 0x80) : encodeChar c = [c.toUInt8] := by
  simp only [encodeChar, ascii, if_true]
  rfl

theorem encode_cons {c : Char} (ascii : c.toNat < 0x80) (cs : List Char) :
    encode (c :: cs) = c.toUInt8 :: encode cs := by
  rw [encode, List.flatMap_cons, encodeChar_ascii ascii]
  rfl

theorem high_of_mem_encodeChar {c : Char} {b : UInt8} (high : ¬ c.toNat < 0x80)
    (inside : b ∈ encodeChar c) : 0x80 ≤ b.toNat := by
  have valid : c.toNat < 0xD800 ∨ 0xDFFF < c.toNat ∧ c.toNat < 0x110000 := c.valid
  -- Every byte of a longer form is 0x80 and something below 0x80.
  have byte {m : Nat} (small : m < 256) (high : 0x80 ≤ m) (same : b = m.toUInt8) :
      0x80 ≤ b.toNat := by
    rw [same, toNat_toUInt8 small]
    exact high
  simp only [encodeChar, high, if_false] at inside
  split at inside
  · rcases List.mem_cons.mp inside with same | inside
    · exact byte (by omega) (by omega) same
    · exact byte (by omega) (by omega) (List.mem_singleton.mp inside)
  · split at inside
    · simp only [List.mem_cons, List.not_mem_nil, or_false] at inside
      rcases inside with same | same | same
      · exact byte (by omega) (by omega) same
      · exact byte (by omega) (by omega) same
      · exact byte (by omega) (by omega) same
    · simp only [List.mem_cons, List.not_mem_nil, or_false] at inside
      rcases inside with same | same | same | same
      · exact byte (by omega) (by omega) same
      · exact byte (by omega) (by omega) same
      · exact byte (by omega) (by omega) same
      · exact byte (by omega) (by omega) same

theorem toNat_asciiByte {c : Char} (ascii : c.toNat < 0x80) : c.toUInt8.toNat = c.toNat :=
  toNat_toUInt8 (n := c.toNat) (by omega)

theorem exists_of_encode_eq_append {cs : List Char} {d : Char} (ascii : d.toNat < 0x80)
    {s t : List UInt8} (same : encode cs = s ++ d.toUInt8 :: t) :
    ∃ front back, cs = front ++ d :: back ∧ encode front = s ∧ encode back = t := by
  induction cs generalizing s with
  | nil => simp [encode] at same
  | cons c cs ih =>
    have behind (s' : List UInt8) (split : s = encodeChar c ++ s')
        (rest : encode cs = s' ++ d.toUInt8 :: t) :
        ∃ front back, c :: cs = front ++ d :: back ∧ encode front = s ∧ encode back = t := by
      obtain ⟨front, back, rfl, before, after⟩ := ih rest
      exact ⟨c :: front, back, rfl, by rw [split, ← before]; rfl, after⟩
    rcases List.append_eq_append_iff.mp same with ⟨s', split, rest⟩ | ⟨s', split, rest⟩
    · exact behind s' split rest
    · cases s' with
      | nil => exact behind [] (by simpa using split.symm) rest.symm
      | cons b s' =>
        obtain ⟨rfl, rfl⟩ := List.cons_eq_cons.mp rest
        have inside : d.toUInt8 ∈ encodeChar c := by
          rw [split]
          simp
        by_cases low : c.toNat < 0x80
        · rw [encodeChar_ascii low] at split inside
          have equal : d.toNat = c.toNat := by
            rw [← toNat_asciiByte ascii, List.mem_singleton.mp inside, toNat_asciiByte low]
          obtain rfl := Char.toNat_inj.mp equal
          cases s with
          | nil =>
            obtain rfl : s' = [] := by simpa using split
            exact ⟨[], cs, rfl, rfl, rfl⟩
          | cons b s => simp at split
        · have := high_of_mem_encodeChar low inside
          rw [toNat_asciiByte ascii] at this
          omega

theorem not_mem_encode {cs : List Char} {d : Char} (ascii : d.toNat < 0x80) (absent : d ∉ cs) :
    d.toUInt8 ∉ encode cs := by
  intro inside
  obtain ⟨s, t, split⟩ := List.append_of_mem inside
  obtain ⟨front, back, rfl, -, -⟩ := exists_of_encode_eq_append ascii split
  exact absent (by simp)

theorem prefix_of_encode_eq_append {cs ds : List Char} (ascii : ∀ d ∈ ds, d.toNat < 0x80)
    {t : List UInt8} (same : encode cs = encode ds ++ t) : ds <+: cs := by
  induction ds generalizing cs with
  | nil => exact List.nil_prefix
  | cons d ds ih =>
    rw [encode_cons (ascii d (by simp))] at same
    obtain ⟨front, back, rfl, empty, rest⟩ :=
      exists_of_encode_eq_append (s := []) (ascii d (by simp)) same
    obtain rfl : front = [] := encode_injective empty
    have shorter := ih (fun e inside => ascii e (by simp [inside])) rest
    exact List.cons_prefix_cons.mpr ⟨rfl, shorter⟩

theorem infix_of_infix_encode {cs ds : List Char} (ascii : ∀ d ∈ ds, d.toNat < 0x80)
    (inside : encode ds <:+: encode cs) : ds <:+: cs := by
  cases ds with
  | nil => exact List.nil_infix
  | cons d ds =>
    obtain ⟨s, t, same⟩ := inside
    rw [encode_cons (ascii d (by simp)), List.append_assoc, List.cons_append] at same
    obtain ⟨front, back, rfl, -, rest⟩ :=
      exists_of_encode_eq_append (ascii d (by simp)) same.symm
    obtain ⟨u, rfl⟩ := prefix_of_encode_eq_append (fun e inside => ascii e (by simp [inside])) rest
    exact ⟨front, u, by simp⟩

end XmlDelta.Text.Utf8
