import XmlDelta.Markup.Attribute

set_option autoImplicit false

namespace XmlDelta.Markup

def inName (b : UInt8) : Bool :=
  !isSpace b && b != '<'.toUInt8 && b != '>'.toUInt8 && b != '='.toUInt8 && b != '/'.toUInt8 &&
    b != '"'.toUInt8 && b != '\''.toUInt8 && b != '!'.toUInt8 && b != '?'.toUInt8

structure PlainName (k : Bytes) : Prop where
  ne_nil : k ≠ []
  bare : ∀ b ∈ k, inName b = true

theorem not_isSpace_of_inName {b : UInt8} (h : inName b = true) : isSpace b = false := by
  simp only [inName, Bool.and_eq_true, Bool.not_eq_true'] at h
  exact h.1.1.1.1.1.1.1.1

theorem inKey_of_inName {b : UInt8} (h : inName b = true) : inKey b = true := by
  have space := not_isSpace_of_inName h
  simp only [inName, Bool.and_eq_true] at h
  simp only [inKey, space, Bool.not_false, Bool.and_true]
  exact h.1.1.1.1.1.2

def attributeBytes (a : Bytes × Bytes) : Bytes :=
  ' '.toUInt8 :: (a.1 ++ '='.toUInt8 :: '"'.toUInt8 :: (a.2 ++ ['"'.toUInt8]))

structure PlainAttribute (a : Bytes × Bytes) : Prop where
  key : PlainName a.1
  value : '"'.toUInt8 ∉ a.2

theorem readKey_written (total : Nat) {a : Bytes × Bytes} (plain : PlainAttribute a) (s : Bytes) :
    ∃ start, readKey total (attributeBytes a ++ s) =
      .ok (some ⟨a.1, start, '"'.toUInt8 :: (a.2 ++ '"'.toUInt8 :: s)⟩) := by
  obtain ⟨k, v⟩ := a
  rcases k with _ | ⟨b, k⟩
  · exact absurd rfl plain.key.ne_nil
  · have first : isSpace b = false := not_isSpace_of_inName (plain.key.bare b (by simp))
    have others : ∀ c ∈ k, inKey c = true := fun c inside =>
      inKey_of_inName (plain.key.bare c (by simp [inside]))
    have skip : (attributeBytes (b :: k, v) ++ s).dropWhile isSpace =
        b :: (k ++ '='.toUInt8 :: '"'.toUInt8 :: (v ++ '"'.toUInt8 :: s)) := by
      have blank : isSpace ' '.toUInt8 = true := rfl
      simp [attributeBytes, blank, first]
    have stop : inKey '='.toUInt8 = false := rfl
    refine ⟨total - ((k ++ '='.toUInt8 :: '"'.toUInt8 :: (v ++ '"'.toUInt8 :: s)).length + 1), ?_⟩
    simp only [readKey, skip, List.takeWhile_append_of_pos others,
      List.dropWhile_append_of_pos others, List.takeWhile_cons, List.dropWhile_cons, stop]
    simp [afterEquals, Except.map]

theorem readValue_written (total : Nat) {v : Bytes} (plain : '"'.toUInt8 ∉ v) (s : Bytes) :
    readValue total ('"'.toUInt8 :: (v ++ '"'.toUInt8 :: s)) = .ok (v, s) := by
  have inside : ∀ b ∈ v, (b != '"'.toUInt8) = true := by
    intro b present
    exact bne_iff_ne.mpr fun same => plain (same ▸ present)
  have quote : isSpace '"'.toUInt8 = false := rfl
  have opens : isQuote '"'.toUInt8 = true := rfl
  simp only [readValue, List.dropWhile_cons, quote, opens, Bool.false_eq_true, if_false, if_true,
    List.dropWhile_append_of_pos inside, List.takeWhile_append_of_pos inside]
  simp

theorem attributesFrom_end {distinct : Bool} {total : Nat} {s : Bytes}
    (atEnd : readKey total s = .ok none) (seen : List RawAttribute) :
    attributesFrom distinct total seen s = (seen.reverse, none) := by
  rw [attributesFrom]
  split
  · simp_all
  · rfl
  · simp_all

theorem attributesFrom_next {total : Nat} {s v r : Bytes} {k : RawKey} {seen : List RawAttribute}
    (key : readKey total s = .ok (some k)) (fresh : k.name ∉ seen.map RawAttribute.key)
    (value : readValue total k.rest = .ok (v, r)) :
    attributesFrom true total seen s = attributesFrom true total (⟨k.name, k.start, v⟩ :: seen) r := by
  have unseen : seen.find? (·.key == k.name) = none := by
    apply List.find?_eq_none.mpr
    intro a inside same
    apply fresh
    exact List.mem_map.mpr ⟨a, inside, beq_iff_eq.mp same⟩
  rw [attributesFrom]
  split
  · simp_all
  · simp_all
  · rename_i k' key'
    rw [key] at key'
    cases key'
    simp only [if_true, unseen]
    split
    · simp_all
    · rename_i v' r' value'
      rw [value] at value'
      cases value'
      rfl

theorem attributesFrom_written (total : Nat) (as : List (Bytes × Bytes))
    (plain : ∀ a ∈ as, PlainAttribute a) (seen : List RawAttribute)
    (distinct : (as.map Prod.fst).Nodup)
    (fresh : ∀ a ∈ as, a.1 ∉ seen.map RawAttribute.key) :
    ∃ raws, attributesFrom true total seen (as.flatMap attributeBytes) =
        (seen.reverse ++ raws, none) ∧ raws.map (fun r => (r.key, r.value)) = as := by
  induction as generalizing seen with
  | nil =>
    refine ⟨[], ?_, rfl⟩
    rw [List.flatMap_nil, attributesFrom_end rfl, List.append_nil]
  | cons a as ih =>
    have here := plain a (by simp)
    obtain ⟨start, key⟩ := readKey_written total here (as.flatMap attributeBytes)
    have value := readValue_written total here.value (as.flatMap attributeBytes)
    simp only [List.map_cons, List.nodup_cons] at distinct
    obtain ⟨raws, read, same⟩ := ih (fun b inside => plain b (by simp [inside]))
      (⟨a.1, start, a.2⟩ :: seen) distinct.2 (by
        intro b inside
        simp only [List.map_cons, List.mem_cons, not_or]
        refine ⟨fun equal => distinct.1 ?_, fresh b (by simp [inside])⟩
        exact equal ▸ List.mem_map_of_mem inside)
    refine ⟨⟨a.1, start, a.2⟩ :: raws, ?_, by simp [same]⟩
    rw [List.flatMap_cons, attributesFrom_next key (fresh a (by simp)) value, read]
    simp

end XmlDelta.Markup
