import XmlDelta.Proofs.Markup.Reading

set_option autoImplicit false

namespace XmlDelta.Markup

open XmlDelta.Text
open XmlDelta.Document (Attributes attributesText)

variable [EastAsian]

theorem eventsFrom_end {r : Reader} (last : r.next = .ok none) (seen : List Event) :
    Reader.eventsFrom seen r = (seen.reverse, none) := by
  rw [Reader.eventsFrom]
  split
  · simp_all
  · rfl
  · simp_all

theorem eventsFrom_next {r r' : Reader} {e : Event} (first : r.next = .ok (some (e, r')))
    (seen : List Event) : Reader.eventsFrom seen r = Reader.eventsFrom (e :: seen) r' := by
  rw [Reader.eventsFrom]
  split
  · simp_all
  · simp_all
  · rename_i e' r' second
    rw [first] at second
    cases second
    rfl

theorem next_of_end {r : Reader} (atEnd : r.rest = []) : r.next = .ok none := by
  rw [Reader.next, atEnd]
  rfl

theorem end_of_next {r : Reader} (last : r.next = .ok none) : r.rest = [] := by
  unfold Reader.next at last
  split at last
  · cases last
  · rename_i nothing
    cases rest : r.rest with
    | nil => rfl
    | cons b s =>
      rw [rest, scan] at nothing
      split at nothing
      · cases made : scanMarkup s <;> simp [made, Except.map] at nothing
      · cases nothing
  · rename_i x _
    cases read : r.read x <;> simp [read, Except.map] at last

inductive Delivers : Reader → List Event → Reader → Prop where
  | done (r : Reader) : Delivers r [] r
  | next {r r₁ r₂ : Reader} {e : Event} {es : List Event} (first : r.next = .ok (some (e, r₁)))
      (rest : Delivers r₁ es r₂) : Delivers r (e :: es) r₂

namespace Delivers

theorem append {r r₁ r₂ : Reader} {xs ys : List Event} (left : Delivers r xs r₁)
    (right : Delivers r₁ ys r₂) : Delivers r (xs ++ ys) r₂ := by
  induction left with
  | done r => exact right
  | next first _ ih => exact .next first (ih right)

theorem eventsFrom_eq {r r₁ : Reader} {es : List Event} (delivers : Delivers r es r₁)
    (atEnd : r₁.rest = []) (seen : List Event) :
    Reader.eventsFrom seen r = (seen.reverse ++ es, none) := by
  induction delivers generalizing seen with
  | done r => rw [eventsFrom_end (next_of_end atEnd), List.append_nil]
  | next first rest ih =>
    rw [eventsFrom_next first, ih atEnd, List.reverse_cons, List.append_assoc]
    rfl

theorem events_eq {r r₁ : Reader} {es : List Event} (delivers : Delivers r es r₁)
    (atEnd : r₁.rest = []) : r.events = (es, none) :=
  delivers.eventsFrom_eq atEnd []

theorem of_append {r r₂ : Reader} {xs ys : List Event} (delivers : Delivers r (xs ++ ys) r₂) :
    ∃ r₁, Delivers r xs r₁ ∧ Delivers r₁ ys r₂ := by
  induction xs generalizing r with
  | nil => exact ⟨r, .done r, delivers⟩
  | cons x xs ih =>
    cases delivers with
    | next first rest =>
      obtain ⟨r₁, left, right⟩ := ih rest
      exact ⟨r₁, .next first left, right⟩

theorem exists_rest {r r₁ r₂ : Reader} {es gs : List Event} (front : Delivers r es r₁)
    (whole : Delivers r gs r₂) (atEnd : r₂.rest = []) :
    ∃ fs, gs = es ++ fs ∧ Delivers r₁ fs r₂ := by
  induction front generalizing gs with
  | done r => exact ⟨gs, rfl, whole⟩
  | @next r r₁ _ e es first rest ih =>
    cases whole with
    | done r =>
      rw [next_of_end atEnd] at first
      cases first
    | next first' rest' =>
      rw [first] at first'
      cases first'
      obtain ⟨fs, rfl, behind⟩ := ih rest'
      exact ⟨fs, rfl, behind⟩

theorem exists_of_eventsFrom {seen gs : List Event} {r : Reader}
    (read : Reader.eventsFrom seen r = (gs, none)) :
    ∃ es r₁, gs = seen.reverse ++ es ∧ Delivers r es r₁ ∧ r₁.rest = [] := by
  fun_induction Reader.eventsFrom seen r with
  | case1 => cases read
  | case2 seen r last =>
    cases read
    exact ⟨[], r, by simp, .done r, end_of_next last⟩
  | case3 seen r e r' first ih =>
    obtain ⟨es, r₁, rfl, delivers, atEnd⟩ := ih read
    exact ⟨e :: es, r₁, by simp, .next first delivers, atEnd⟩

end Delivers

structure At (r : Reader) (cs : List Char) (opened : List Bytes) : Prop where
  rest : r.rest = Utf8.encode cs
  encoding : r.encoding = .utf8
  opened : r.opened = opened

omit [EastAsian] in
theorem at_ofText {s : String} {c : Char} {cs : List Char} (shape : s.toList = c :: cs)
    (ascii : c.toNat < 0x80) : At (.ofText s) s.toList [] := by
  have first : ((0xEF : UInt8) == c.toUInt8) = false := by
    rw [beq_eq_false_iff_ne, ne_eq, ← UInt8.toNat_inj, Utf8.toNat_asciiByte ascii]
    change ¬ 0xEF = c.toNat
    omega
  have mark : [0xEF, 0xBB, 0xBF].isPrefixOf (Utf8.encode s.toList) = false := by
    rw [shape, Utf8.encode_cons ascii, List.isPrefixOf_cons_cons, first, Bool.false_and]
  refine ⟨?_, rfl, rfl⟩
  simp only [Reader.ofText, mark, if_neg Bool.false_ne_true]

structure NoMarkup (s : String) : Prop where
  noTag : '<' ∉ s.toList
  noReference : '&' ∉ s.toList

instance (s : String) : Decidable (NoMarkup s) :=
  decidable_of_iff ('<' ∉ s.toList ∧ '&' ∉ s.toList)
    ⟨fun plain => ⟨plain.1, plain.2⟩, fun plain => ⟨plain.noTag, plain.noReference⟩⟩

omit [EastAsian] in
theorem NoMarkup.append {s t : String} (left : NoMarkup s) (right : NoMarkup t) :
    NoMarkup (s ++ t) := by
  refine ⟨?_, ?_⟩ <;> rw [String.toList_append, List.mem_append, not_or]
  · exact ⟨left.noTag, right.noTag⟩
  · exact ⟨left.noReference, right.noReference⟩

theorem next_of_scan {r r' : Reader} {x : Scanned} {e : Event} (scanned : scan r.rest = .ok (some x))
    (read : r.read x = .ok (e, r')) : r.next = .ok (some (e, r')) := by
  rw [Reader.next, scanned]
  change (r.read x).map some = _
  rw [read]
  rfl

theorem read_text (r : Reader) (raw rest : Bytes) (size : Nat) :
    r.read ⟨.text raw, size, rest⟩ = .ok (.text (decodeText r.encoding raw >>= unescape),
      { r with rest := rest, offset := r.offset + size }) :=
  rfl

theorem read_opening (r : Reader) (content rest : Bytes) (size : Nat) :
    r.read ⟨.opening content, size, rest⟩ = .ok (.start (startTag r.encoding content),
      { r with
        rest := rest
        offset := r.offset + size
        opened := tagName content :: r.opened }) :=
  rfl

theorem read_closing {r : Reader} {name : Bytes} {os : List Bytes} (opened : r.opened = name :: os)
    (rest : Bytes) (size : Nat) :
    r.read ⟨.closing name, size, rest⟩ =
      .ok (.finish, { r with rest := rest, offset := r.offset + size, opened := os }) := by
  simp only [Reader.read, opened, if_true]

omit [EastAsian] in
theorem data_encode {cs : List Char} (plain : '<' ∉ cs) :
    ∀ b ∈ Utf8.encode cs, isData b = true := by
  intro b inside
  apply bne_iff_ne.mpr
  rintro rfl
  exact Utf8.not_mem_encode (by decide) plain inside

theorem delivers_text {r : Reader} {s : String} {cs : List Char} {opened : List Bytes}
    (here : At r (s.toList ++ '<' :: cs) opened) (nonempty : s ≠ "") (plain : NoMarkup s) :
    ∃ r', Delivers r [.text (.ok s)] r' ∧ At r' ('<' :: cs) opened := by
  have bytes : r.rest = Utf8.encode s.toList ++ '<'.toUInt8 :: Utf8.encode cs := by
    rw [here.rest, Utf8.encode_append, Utf8.encode_cons (by decide)]
  have present : Utf8.encode s.toList ≠ [] := by
    intro empty
    exact nonempty (String.toList_inj.mp (Utf8.encode_injective empty))
  have scanned := scan_text present (data_encode plain.noTag) (stops_tag (Utf8.encode cs))
  rw [← bytes] at scanned
  have payload : (decodeText r.encoding (Utf8.encode s.toList) >>= unescape) = .ok s := by
    rw [here.encoding, decodeText_encode]
    exact unescape_plain plain.noReference
  refine ⟨_, .next (next_of_scan scanned (by rw [read_text, payload])) (.done _), ?_⟩
  exact ⟨(Utf8.encode_cons (by decide) cs).symm, here.encoding, here.opened⟩

theorem delivers_opening {r : Reader} {tag : String} {as : Attributes} {cs : List Char}
    {opened : List Bytes}
    (here : At r ('<' :: (tag.toList ++ (attributesText as).toList ++ '>' :: cs)) opened)
    (name : isName tag = true) (plain : ∀ a ∈ as.entries, PlainEntry a) :
    ∃ r', Delivers r [.start (.ok ⟨tag, as⟩)] r' ∧
      At r' cs (Utf8.encode tag.toList :: opened) := by
  have named := plainName_encode name
  have entries : ∀ a ∈ as.entries.map entryBytes, PlainAttribute a :=
    List.forall_mem_map.mpr fun a inside => plainAttribute_encode (plain a inside)
  have bytes : r.rest = '<'.toUInt8 ::
      (tagBytes (Utf8.encode tag.toList) (as.entries.map entryBytes) ++
        '>'.toUInt8 :: Utf8.encode cs) := by
    rw [here.rest, Utf8.encode_cons (by decide), Utf8.encode_append, Utf8.encode_append,
      encode_attributesText, Utf8.encode_cons (by decide), tagBytes]
  have scanned := scan_opening named entries (Utf8.encode cs)
  rw [← bytes] at scanned
  have payload := startTag_written name plain
  rw [← here.encoding] at payload
  refine ⟨_, .next (next_of_scan scanned (by rw [read_opening, payload])) (.done _), ?_⟩
  exact ⟨rfl, here.encoding, congrArg₂ List.cons (tagName_tagBytes named _) here.opened⟩

theorem delivers_closing {r : Reader} {tag : String} {cs : List Char} {opened : List Bytes}
    (here : At r ('<' :: '/' :: (tag.toList ++ '>' :: cs)) (Utf8.encode tag.toList :: opened))
    (name : isName tag = true) : ∃ r', Delivers r [.finish] r' ∧ At r' cs opened := by
  have bytes : r.rest = '<'.toUInt8 :: '/'.toUInt8 ::
      (Utf8.encode tag.toList ++ '>'.toUInt8 :: Utf8.encode cs) := by
    rw [here.rest, Utf8.encode_cons (by decide), Utf8.encode_cons (by decide),
      Utf8.encode_append, Utf8.encode_cons (by decide)]
  have scanned := scan_closing (plainName_encode name) (Utf8.encode cs)
  rw [← bytes] at scanned
  refine ⟨_, .next (next_of_scan scanned (read_closing here.opened _ _)) (.done _), ?_⟩
  exact ⟨rfl, here.encoding, rfl⟩

end XmlDelta.Markup
