import Mathlib.Data.List.Nodup
import XmlDelta.Document.Render
import XmlDelta.Markup.Event
import XmlDelta.Proofs.Keyed
import XmlDelta.Proofs.Markup.Scan
import XmlDelta.Proofs.Text.Utf8

set_option autoImplicit false

namespace XmlDelta.Markup

open XmlDelta.Text
open XmlDelta.Document (Attributes attributeText attributesText)

def isNameStart (c : Char) : Bool :=
  c.isAlpha || c == '_'

def isNameChar (c : Char) : Bool :=
  c.isAlphanum || c == '_' || c == '-' || c == '.' || c == ':'

def isName (s : String) : Bool :=
  match s.toList with
  | [] => false
  | c :: r => isNameStart c && r.all isNameChar

theorem isNameChar_of_isNameStart {c : Char} (start : isNameStart c = true) :
    isNameChar c = true := by
  simp only [isNameStart, Bool.or_eq_true] at start
  rcases start with letter | underscore
  · simp [isNameChar, Char.isAlphanum, letter]
  · simp [isNameChar, underscore]

theorem ascii_of_isNameChar {c : Char} (name : isNameChar c = true) : c.toNat < 0x80 := by
  delta isNameChar Char.isAlphanum Char.isAlpha Char.isUpper Char.isLower Char.isDigit at name
  simp only [Bool.or_eq_true, Bool.and_eq_true, decide_eq_true_eq, beq_iff_eq,
    UInt32.le_iff_toNat_le, ge_iff_le] at name
  change c.val.toNat < 0x80
  rcases name with (((((upper | lower) | digit) | rfl) | rfl) | rfl) | rfl
  · exact Nat.lt_of_le_of_lt upper.2 (by decide)
  · exact Nat.lt_of_le_of_lt lower.2 (by decide)
  · exact Nat.lt_of_le_of_lt digit.2 (by decide)
  · decide
  · decide
  · decide
  · decide

theorem inName_of_isNameChar {c : Char} (name : isNameChar c = true) :
    inName c.toUInt8 = true := by
  have all : ∀ n < 0x80, isNameChar (Char.ofNat n) = true →
      inName (Char.ofNat n).toUInt8 = true := by
    decide
  have := all c.toNat (ascii_of_isNameChar name)
  rw [Char.ofNat_toNat] at this
  exact this name

theorem isNameChar_of_isName {s : String} (name : isName s = true) :
    ∀ c ∈ s.toList, isNameChar c = true := by
  rw [isName] at name
  intro c inside
  split at name
  · cases name
  · rename_i d r shape
    rw [shape] at inside
    rw [Bool.and_eq_true] at name
    rcases List.mem_cons.mp inside with rfl | inside
    · exact isNameChar_of_isNameStart name.1
    · exact List.all_eq_true.mp name.2 c inside

theorem plainName_encode {s : String} (name : isName s = true) :
    PlainName (Utf8.encode s.toList) where
  ne_nil := by
    intro empty
    have nil : s.toList = [] := Utf8.encode_injective empty
    rw [isName, nil] at name
    cases name
  bare := by
    intro b inside
    obtain ⟨c, present, inside⟩ := List.mem_flatMap.mp inside
    have char := isNameChar_of_isName name c present
    rw [Utf8.encodeChar_ascii (ascii_of_isNameChar char), List.mem_singleton] at inside
    exact inside ▸ inName_of_isNameChar char

def PlainEntry (a : String × String) : Prop :=
  isName a.1 = true ∧ '"' ∉ a.2.toList ∧ '&' ∉ a.2.toList

instance (a : String × String) : Decidable (PlainEntry a) :=
  inferInstanceAs (Decidable (_ ∧ _))

def entryBytes (a : String × String) : Bytes × Bytes :=
  (Utf8.encode a.1.toList, Utf8.encode a.2.toList)

theorem plainAttribute_encode {a : String × String} (plain : PlainEntry a) :
    PlainAttribute (entryBytes a) :=
  ⟨plainName_encode plain.1, Utf8.not_mem_encode (by decide) plain.2.1⟩

theorem encode_attributeText (a : String × String) :
    Utf8.encode (attributeText a).toList = attributeBytes (entryBytes a) := by
  have shape : (attributeText a).toList =
      ' ' :: (a.1.toList ++ '=' :: '"' :: (a.2.toList ++ ['"'])) := by
    simp [attributeText]
  rw [shape, Utf8.encode_cons (by decide), Utf8.encode_append, Utf8.encode_cons (by decide),
    Utf8.encode_cons (by decide), Utf8.encode_append, Utf8.encode_cons (by decide)]
  rfl

theorem encode_attributesText (as : Attributes) :
    Utf8.encode (attributesText as).toList =
      (as.entries.map entryBytes).flatMap attributeBytes := by
  rw [attributesText, String.toList_join]
  induction as.entries with
  | nil => rfl
  | cons a as ih =>
    simp only [List.map_cons, List.flatMap_cons, Utf8.encode_append, encode_attributeText, ih]

theorem resolveFrom_plain {s : List Char} (plain : '&' ∉ s) (total offset : Nat)
    (seen : List Char) : resolveFrom total offset seen s = .ok (seen.reverse ++ s) := by
  induction s generalizing offset seen with
  | nil => rw [resolveFrom, List.append_nil]
  | cons c s ih =>
    simp only [List.mem_cons, not_or] at plain
    rw [resolveFrom, if_neg (Ne.symm plain.1), ih plain.2]
    simp

theorem decodeText_encode [EastAsian] (s : String) :
    decodeText .utf8 (Utf8.encode s.toList) = .ok s := by
  simp [decodeText, Encoding.decode, Encoding.decodeChars, Utf8.decode_encode]

theorem unescape_plain {s : String} (plain : '&' ∉ s.toList) : unescape s = .ok s := by
  simp [unescape, resolveReferences, resolveFrom_plain plain, Except.map]

theorem entries_foldl_set (entries : Keyed String) (done : Attributes)
    (fresh : (done.entries.keys ++ entries.keys).Nodup) :
    (entries.foldl (fun as a => as.set a.1 a.2) done).entries = done.entries ++ entries := by
  induction entries generalizing done with
  | nil => simp
  | cons a entries ih =>
    have absent : a.1 ∉ done.entries.keys := by
      intro present
      exact (List.nodup_append.mp fresh).2.2 a.1 present a.1 (by simp [Keyed.keys]) rfl
    have added : (done.set a.1 a.2).entries = done.entries ++ [a] :=
      Keyed.set_of_not_mem absent a.2
    rw [List.foldl_cons, ih (done.set a.1 a.2), added, List.append_assoc]
    · rfl
    · rw [added]
      simpa [Keyed.keys] using fresh

theorem decodeAttributes_written [EastAsian] {raws : List RawAttribute} {entries : Keyed String}
    (same : raws.map (fun r => (r.key, r.value)) = entries.map entryBytes)
    (plain : ∀ a ∈ entries, PlainEntry a) (done : Attributes) :
    decodeAttributes .utf8 none done raws =
      .ok (entries.foldl (fun as a => as.set a.1 a.2) done) := by
  induction entries generalizing raws done with
  | nil =>
    obtain rfl : raws = [] := List.map_eq_nil_iff.mp same
    rfl
  | cons a entries ih =>
    rcases raws with _ | ⟨r, raws⟩
    · cases same
    · simp only [List.map_cons, List.cons.injEq, entryBytes, Prod.mk.injEq] at same
      obtain ⟨⟨key, value⟩, same⟩ := same
      rw [decodeAttributes, key, value, decodeText_encode, decodeText_encode]
      simp only [bind, Except.bind, unescape_plain (plain a (by simp)).2.2]
      exact ih same (fun b inside => plain b (by simp [inside])) _

theorem startTag_written [EastAsian] {name : String} {as : Attributes}
    (plainName : isName name = true) (plain : ∀ a ∈ as.entries, PlainEntry a) :
    startTag .utf8 (tagBytes (Utf8.encode name.toList) (as.entries.map entryBytes)) =
      .ok ⟨name, as⟩ := by
  have named := plainName_encode plainName
  have attributes : ∀ a ∈ as.entries.map entryBytes, PlainAttribute a := by
    intro a inside
    obtain ⟨b, present, rfl⟩ := List.mem_map.mp inside
    exact plainAttribute_encode (plain b present)
  have distinct : ((as.entries.map entryBytes).map Prod.fst).Nodup := by
    have keys : (as.entries.map entryBytes).map Prod.fst =
        as.entries.keys.map fun k => Utf8.encode k.toList := by
      simp [Keyed.keys, entryBytes, Function.comp_def]
    rw [keys]
    exact as.distinct.map fun _ _ same => String.toList_inj.mp (Utf8.encode_injective same)
  obtain ⟨raws, read, same⟩ := attributes_tagBytes named attributes distinct
  have decoded := decodeAttributes_written same plain {}
  have back : as.entries.foldl (fun as a => as.set a.1 a.2) {} = as := by
    apply Attributes.ext
    rw [entries_foldl_set as.entries {} as.distinct]
    rfl
  rw [startTag, tagName_tagBytes named, decodeText_encode]
  simp only [bind, Except.bind, read, decoded, back]
  rfl

end XmlDelta.Markup
