import XmlDelta.Document.Builder
import XmlDelta.Proofs.Markup.Position
import XmlDelta.Proofs.Markup.Settled

set_option autoImplicit false

namespace XmlDelta.Document

open XmlDelta.Markup XmlDelta.Text

theorem ofBytes_encode {s : String} (noNul : Char.ofNat 0 ∉ s.toList) :
    Reader.ofBytes (Utf8.encode s.toList) = (Reader.ofText s).settle false := by
  have bytes : 0x00 ∉ Utf8.encode s.toList := Utf8.not_mem_encode (by decide) noNul
  -- No character begins with the first byte of a UTF-16 mark.
  have noMark {b : UInt8} (high : 0xF4 < b) (r : Bytes) :
      (b :: r).isPrefixOf (Utf8.encode s.toList) = false :=
    Utf8.not_prefix_encode high r s.toList
  have noDeclaration {x : Bytes} (nul : 0x00 ∈ x) :
      x.isPrefixOf (Utf8.encode s.toList) = false :=
    Bool.eq_false_iff.mpr fun begins =>
      bytes ((List.isPrefixOf_iff_prefix.mp begins).subset nul)
  have bigEndian := noDeclaration (x := [0x00, 0x3C, 0x00, 0x3F]) (by decide)
  have littleEndian := noDeclaration (x := [0x3C, 0x00, 0x3F, 0x00]) (by decide)
  simp only [Reader.ofBytes, noMark (b := 0xFE) (by decide), noMark (b := 0xFF) (by decide),
    bigEndian, littleEndian, Bool.false_eq_true, if_false, Reader.ofText, Reader.settle]
  split <;> rfl

theorem staysUtf8_ofText {s : String}
    (named : ∀ e ∈ namedEncodings (Utf8.encode s.toList), e = .utf8) :
    (Reader.ofText s).StaysUtf8 := by
  refine ⟨rfl, ?_⟩
  rw [rest_ofText]
  cases whole : s.toList with
  | nil => simpa [whole, unmarked] using named
  | cons c cs =>
    by_cases marked : c = mark
    · rw [unmarked, if_pos marked]
      -- The mark is character data, which names nothing.
      rw [whole, marked] at named
      have data : ∀ b ∈ Utf8.encode [mark], isData b = true := data_encode (by decide)
      rw [← List.singleton_append, Utf8.encode_append, namedEncodings_append data] at named
      exact named
    · rw [unmarked, if_neg marked, ← whole]
      exact named

theorem parseFrom_settle [EastAsian] {r : Reader} (stays : r.StaysUtf8) (b : Bool) :
    parseFrom (r.settle b) = parseFrom r := by
  have events : (r.settle b).events = r.events := stays.eventsFrom_settle [] b
  rw [parseFrom, parseFrom, events]

theorem ofText_marked {s : String} {cs : List Char} (marked : s.toList = mark :: cs)
    (once : cs.head? ≠ some mark) : Reader.ofText s = Reader.ofText (String.ofList cs) := by
  have kept : unmarked cs = cs := by
    cases cs with
    | nil => rfl
    | cons c cs => exact if_neg fun same => once (by rw [same, List.head?_cons])
  rw [ofText_eq rfl, ofText_eq rfl, marked, String.toList_ofList, kept, unmarked, if_pos rfl]

/-- The bytes of a text give the tree or the fault that the text gives; a byte order mark in front
is dropped from both. -/
theorem parseBytes_encode [EastAsian] {s : String} (noNul : Char.ofNat 0 ∉ s.toList)
    (named : ∀ e ∈ namedEncodings (Utf8.encode s.toList), e = .utf8) :
    parseBytes (Utf8.encode s.toList) = parseText s ∧
      ∀ cs, s.toList = mark :: cs →
        (Reader.ofText s).rest = Utf8.encode cs ∧
        (Reader.ofBytes (Utf8.encode s.toList)).rest = Utf8.encode cs ∧
        (cs.head? ≠ some mark → parseText s = parseText (String.ofList cs) ∧
          parseBytes (Utf8.encode s.toList) = parseText (String.ofList cs)) := by
  have same : parseBytes (Utf8.encode s.toList) = parseText s := by
    rw [parseBytes, ofBytes_encode noNul, parseFrom_settle (staysUtf8_ofText named), parseText]
  refine ⟨same, fun cs marked => ?_⟩
  have dropped : (Reader.ofText s).rest = Utf8.encode cs := by
    rw [rest_ofText, marked, unmarked, if_pos rfl]
  refine ⟨dropped, by rw [ofBytes_encode noNul]; exact dropped, fun once => ?_⟩
  have text : parseText s = parseText (String.ofList cs) := by
    rw [parseText, ofText_marked marked once, parseText]
  exact ⟨text, same.trans text⟩

theorem parseBytes_encode_marked :
    let refused := "\uFEFF<?xml encoding=' UTF8 '?><é></e>"
    let fault : DocumentFault := .markup (.mismatchedEnd "é" "e") 29
    let read := "\uFEFF<?xml encoding='x'?><é k='&lt;'/>"
    let tree : Element := { tag := "é", attributes := ({} : Attributes).set "k" "<" }
    (Char.ofNat 0 ∉ refused.toList ∧ namedEncodings (Utf8.encode refused.toList) = [.utf8] ∧
      parseText refused = .error fault ∧ parseBytes (Utf8.encode refused.toList) = .error fault) ∧
    (Char.ofNat 0 ∉ read.toList ∧ namedEncodings (Utf8.encode read.toList) = [] ∧
      parseText read = .ok tree ∧ parseBytes (Utf8.encode read.toList) = .ok tree ∧
      parseText "<?xml encoding='x'?><é k='&lt;'/>" = .ok tree) := by
  intro refused fault read tree
  have noNul : Char.ofNat 0 ∉ refused.toList ∧ Char.ofNat 0 ∉ read.toList := by decide
  have known : namedEncodings (Utf8.encode refused.toList) = [.utf8] := by decide +kernel
  have unknown : namedEncodings (Utf8.encode read.toList) = [] := by decide +kernel
  have fails : parseText refused = .error fault := by
    let whole : Reader :=
      ⟨Utf8.encode "<?xml encoding=' UTF8 '?><é></e>".toList, 0, [], .utf8, true⟩
    let opening : Reader := ⟨Utf8.encode "<é></e>".toList, 25, [], .utf8, true⟩
    let closing : Reader := ⟨Utf8.encode "</e>".toList, 29, [Utf8.encode ['é']], .utf8, true⟩
    have start : Reader.ofText refused = whole := ofText_eq (by decide)
    have first : whole.next = .ok (some (.ignored, opening)) := by with_unfolding_all rfl
    have second : opening.next = .ok (some (.start (.ok ⟨"é", {}⟩), closing)) := by
      with_unfolding_all rfl
    have third : closing.next = .error fault := by with_unfolding_all rfl
    rw [parseText, start, parseFrom, Reader.events, eventsFrom_next first, eventsFrom_next second,
      Reader.eventsFrom_of_fault third]
    rfl
  have succeeds : parseText read = .ok tree := by
    let whole : Reader :=
      ⟨Utf8.encode "<?xml encoding='x'?><é k='&lt;'/>".toList, 0, [], .utf8, true⟩
    let element : Reader := ⟨Utf8.encode "<é k='&lt;'/>".toList, 20, [], .utf8, true⟩
    let done : Reader := ⟨[], 34, [], .utf8, true⟩
    have start : Reader.ofText read = whole := ofText_eq (by decide)
    have first : whole.next = .ok (some (.ignored, element)) := by with_unfolding_all rfl
    have second : element.next = .ok (some (.empty (.ok ⟨"é", tree.attributes⟩), done)) := by
      with_unfolding_all rfl
    rw [parseText, start, parseFrom, Reader.events, eventsFrom_next first, eventsFrom_next second,
      eventsFrom_end (next_of_end rfl)]
    rfl
  have bytes := parseBytes_encode noNul.1 (by simp [known])
  have bytes' := parseBytes_encode noNul.2 (by simp [unknown])
  obtain ⟨-, -, dropped⟩ := bytes'.2 "<?xml encoding='x'?><é k='&lt;'/>".toList (by decide)
  have bare := (dropped (by decide)).1
  rw [String.ofList_toList] at bare
  exact ⟨⟨noNul.1, known, fails, bytes.1.trans fails⟩,
    noNul.2, unknown, succeeds, bytes'.1.trans succeeds, bare.symm.trans succeeds⟩

-- Where another encoding is named, the bytes are read in it.
example :
    let s := "<?xml encoding='ISO-8859-2'?><r>ą</r>"
    namedEncodings (Utf8.encode s.toList) = [.codePage .latin2] ∧
      (parseText s).toOption.bind Element.text = some "ą" ∧
      (parseBytes (Utf8.encode s.toList)).toOption.bind Element.text = some "Ä\u0085" := by
  decide +kernel

end XmlDelta.Document
