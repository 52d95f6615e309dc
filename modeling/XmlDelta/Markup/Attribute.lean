import XmlDelta.Markup.Scan

set_option autoImplicit false

namespace XmlDelta.Markup

inductive AttributeFault where
  | noEquals (position : Nat)
  | duplicated (position previous : Nat)
  | unquoted (position : Nat)
  | noValue (position : Nat)
  | quoteUnclosed (position : Nat) (quote : UInt8)
  deriving DecidableEq

namespace AttributeFault

def message : AttributeFault → String
  | noEquals p => s!"position {p}: attribute key must be directly followed by `=` or space"
  | duplicated p q => s!"position {p}: duplicated attribute, previous declaration at position {q}"
  | unquoted p => s!"position {p}: attribute value must be enclosed in `\"` or `'`"
  | noValue p => s!"position {p}: `=` must be followed by an attribute value"
  | quoteUnclosed p q =>
    s!"position {p}: missing closing quote `{Char.ofNat q.toNat}` in attribute value"

end AttributeFault

structure RawAttribute where
  key : Bytes
  start : Nat
  value : Bytes

structure RawKey where
  name : Bytes
  start : Nat
  rest : Bytes

def inKey (b : UInt8) : Bool :=
  b != '='.toUInt8 && !isSpace b

def isQuote (b : UInt8) : Bool :=
  b == '"'.toUInt8 || b == '\''.toUInt8

def afterEquals (total : Nat) (s : Bytes) : Except AttributeFault Bytes :=
  match s with
  | [] => .error (.noEquals total)
  | c :: r =>
    if c == '='.toUInt8 then .ok r
    else
      -- `c` is a blank, and only more of them may come before the `=`.
      match r.dropWhile isSpace with
      | [] => .error (.noEquals total)
      | d :: v => if d == '='.toUInt8 then .ok v else .error (.noEquals (total - (v.length + 1)))

def readKey (total : Nat) (s : Bytes) : Except AttributeFault (Option RawKey) :=
  match s.dropWhile isSpace with
  | [] => .ok none
  | b :: r =>
    (afterEquals total (r.dropWhile inKey)).map fun v =>
      some ⟨b :: r.takeWhile inKey, total - (r.length + 1), v⟩

def readValue (total : Nat) (s : Bytes) : Except AttributeFault (Bytes × Bytes) :=
  match s.dropWhile isSpace with
  | [] => .error (.noValue total)
  | q :: w =>
    if isQuote q then
      match w.dropWhile (· != q) with
      | [] => .error (.quoteUnclosed total q)
      | _ :: r => .ok (w.takeWhile (· != q), r)
    else .error (.unquoted (total - (w.length + 1)))

theorem afterEquals_length {total : Nat} {s v : Bytes} (h : afterEquals total s = .ok v) :
    v.length < s.length := by
  unfold afterEquals at h
  split at h
  · cases h
  · rename_i c r
    split at h
    · cases h
      simp
    · split at h
      · cases h
      · rename_i d w hw
        split at h
        · cases h
          have := (List.dropWhile_suffix isSpace (l := r)).length_le
          simp only [hw, List.length_cons] at this ⊢
          omega
        · cases h

theorem readKey_length {total : Nat} {s : Bytes} {k : RawKey}
    (h : readKey total s = .ok (some k)) : k.rest.length < s.length := by
  unfold readKey at h
  split at h
  · cases h
  · rename_i b r hr
    cases ha : afterEquals total (r.dropWhile inKey) with
    | error e => simp [ha, Except.map] at h
    | ok v =>
      simp only [ha, Except.map, Except.ok.injEq, Option.some.injEq] at h
      subst h
      have h1 := afterEquals_length ha
      have h2 := (List.dropWhile_suffix inKey (l := r)).length_le
      have h3 := (List.dropWhile_suffix isSpace (l := s)).length_le
      simp only [hr, List.length_cons] at h3
      simp only
      omega

theorem readValue_length {total : Nat} {s v r : Bytes} (h : readValue total s = .ok (v, r)) :
    r.length < s.length := by
  unfold readValue at h
  split at h
  · cases h
  · rename_i q w hw
    split at h
    · split at h
      · cases h
      · rename_i d t ht
        simp only [Except.ok.injEq, Prod.mk.injEq] at h
        have h2 := (List.dropWhile_suffix (· != q) (l := w)).length_le
        have h3 := (List.dropWhile_suffix isSpace (l := s)).length_le
        rw [ht] at h2
        rw [hw] at h3
        simp only [List.length_cons] at h2 h3
        rw [← h.2]
        omega
    · cases h

def attributesFrom (distinct : Bool) (total : Nat) (seen : List RawAttribute) (s : Bytes) :
    List RawAttribute × Option AttributeFault :=
  match _hk : readKey total s with
  | .error e => (seen.reverse, some e)
  | .ok none => (seen.reverse, none)
  | .ok (some k) =>
    -- A key that came before is refused before its value is looked at.
    match if distinct then seen.find? (·.key == k.name) else none with
    | some a => (seen.reverse, some (.duplicated k.start a.start))
    | none =>
      match _hv : readValue total k.rest with
      | .error e => (seen.reverse, some e)
      | .ok (v, r) => attributesFrom distinct total (⟨k.name, k.start, v⟩ :: seen) r
termination_by s.length
decreasing_by
  have := readKey_length _hk
  have := readValue_length _hv
  omega

def tagName (content : Bytes) : Bytes :=
  content.takeWhile (!isSpace ·)

def attributes (distinct : Bool) (content : Bytes) : List RawAttribute × Option AttributeFault :=
  attributesFrom distinct content.length [] (content.dropWhile (!isSpace ·))

end XmlDelta.Markup
