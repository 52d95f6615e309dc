import XmlDelta.Proofs.Markup.Locality
import XmlDelta.Proofs.Markup.Resolve

set_option autoImplicit false

namespace XmlDelta.Markup

open XmlDelta.Text

section Runs

variable [EastAsian]

def textOf (raw : Bytes) : Payload String :=
  decodeText .utf8 raw >>= unescape

def textEvents (raw : Bytes) : List Event :=
  if raw = [] then [] else [.text (textOf raw)]

theorem textOf_eq_ok_iff {raw : Bytes} {s : String} :
    textOf raw = .ok s ↔ ∃ cs, Utf8.decode raw = some cs ∧ Resolves cs s.toList := by
  cases decoded : Utf8.decode raw with
  | none =>
    simp [textOf, decodeText, Encoding.decode, Encoding.decodeChars, decoded, bind, Except.bind]
  | some cs =>
    have text : textOf raw = unescape (String.ofList cs) := by
      simp [textOf, decodeText, Encoding.decode, Encoding.decodeChars, decoded, bind, Except.bind]
    rw [text, unescape_eq_ok_iff, String.toList_ofList]
    simp

theorem textOf_append {u v : Bytes} {s t : String} (left : textOf u = .ok s)
    (right : textOf v = .ok t) : textOf (u ++ v) = .ok (s ++ t) := by
  obtain ⟨cs, decoded, resolves⟩ := textOf_eq_ok_iff.mp left
  obtain ⟨ds, decoded', resolves'⟩ := textOf_eq_ok_iff.mp right
  apply textOf_eq_ok_iff.mpr
  refine ⟨cs ++ ds, ?_, ?_⟩
  · rw [Utf8.decode_append decoded, decoded', Option.map_some]
  · rw [String.toList_append]
    exact resolves.append resolves'

theorem exists_textOf_split {u : List Char} {v : Bytes} {w : String} (closed : Closed u)
    (whole : textOf (Utf8.encode u ++ v) = .ok w) :
    ∃ s t, w = s ++ t ∧ textOf (Utf8.encode u) = .ok s ∧ textOf v = .ok t := by
  obtain ⟨cs, decoded, resolves⟩ := textOf_eq_ok_iff.mp whole
  rw [Utf8.decode_append (Utf8.decode_encode u)] at decoded
  obtain ⟨ds, behind, rfl⟩ := Option.map_eq_some_iff.mp decoded
  obtain ⟨p, q, same, left, right⟩ := resolves.split closed
  refine ⟨String.ofList p, String.ofList q, ?_, ?_, ?_⟩
  · rw [← String.toList_inj, String.toList_append, String.toList_ofList, String.toList_ofList, same]
  · exact textOf_eq_ok_iff.mpr ⟨u, Utf8.decode_encode u, by rwa [String.toList_ofList]⟩
  · exact textOf_eq_ok_iff.mpr ⟨ds, behind, by rwa [String.toList_ofList]⟩

theorem textOf_plain {cs : List Char} (plain : '&' ∉ cs) :
    textOf (Utf8.encode cs) = .ok (String.ofList cs) := by
  apply textOf_eq_ok_iff.mpr
  refine ⟨cs, Utf8.decode_encode cs, ?_⟩
  rw [String.toList_ofList]
  exact resolves_plain plain

theorem delivers_run {r : Reader} (encoding : r.encoding = .utf8) {raw t : Bytes}
    (data : ∀ b ∈ raw, isData b = true) (stops : Stops t) (n : Nat) :
    ∃ m, Delivers (r.moved (raw ++ t) n) (textEvents raw) (r.moved t m) := by
  by_cases nothing : raw = []
  · rw [textEvents, if_pos nothing, nothing]
    exact ⟨n, .done _⟩
  · rw [textEvents, if_neg nothing]
    have scanned := scan_text nothing data stops
    have read := read_text (r.moved (raw ++ t) n) raw t raw.length
    have payload : (decodeText (r.moved (raw ++ t) n).encoding raw >>= unescape) = textOf raw := by
      rw [textOf, ← encoding]
      rfl
    rw [payload] at read
    exact ⟨n + raw.length, .next (next_of_scan scanned read) (.done _)⟩

end Runs

section Asides

inductive Aside where
  | comment (c : List Char)
  | instruction (target c : List Char)

namespace Aside

def text : Aside → List Char
  | comment c => '<' :: '!' :: '-' :: '-' :: (c ++ ['-', '-', '>'])
  | instruction target c => '<' :: '?' :: (target ++ ' ' :: (c ++ ['?', '>']))

def Plain : Aside → Prop
  | comment c => ¬ ['-', '-', '>'] <:+: c
  | instruction target c => '>' ∉ target ∧ '>' ∉ c

end Aside

theorem exists_encode_text (a : Aside) : ∃ s, Utf8.encode a.text = '<'.toUInt8 :: s := by
  cases a with
  | comment c => exact ⟨_, Utf8.encode_cons (by decide) _⟩
  | instruction target c => exact ⟨_, Utf8.encode_cons (by decide) _⟩

theorem cut_stopsAfter {ends : Bytes → Bool} {x before : Bytes}
    (goesOn : ∀ p q, x = p ++ '>'.toUInt8 :: q → ends (p.reverse ++ before) = false)
    (ended : ends (x.reverse ++ before) = true) (t : Bytes) :
    cut (stopsAfter ends) before (x ++ '>'.toUInt8 :: t) = some (x, t) := by
  have passes : x.foldlM (stopsAfter ends) before = some (x.reverse ++ before) := by
    clear ended
    induction x generalizing before with
    | nil => rfl
    | cons b x ih =>
      have first : stopsAfter ends before b = some (b :: before) := by
        by_cases last : b = '>'.toUInt8
        · have early := goesOn [] x (by rw [last]; rfl)
          simpa [stopsAfter, last] using early
        · simp [stopsAfter, last]
      rw [List.foldlM_cons, first, List.reverse_cons, List.append_assoc]
      apply ih
      rintro p q rfl
      simpa using goesOn (b :: p) q rfl
  apply cut_of_passes passes
  simp [stopsAfter, ended]

theorem endsComment_append_dashes (a b : UInt8) (s : Bytes) :
    endsComment (a :: b :: (s ++ ['-'.toUInt8, '-'.toUInt8])) =
      (a == '-'.toUInt8 && b == '-'.toUInt8) := by
  match s with
  | [] => rfl
  | [_] => rfl
  | _ :: _ :: _ => rfl

def commentEnd : Bytes :=
  ['-'.toUInt8, '-'.toUInt8, '>'.toUInt8]

theorem endsComment_of_append {x : Bytes} (plain : ¬ commentEnd <:+: x) {p q : Bytes}
    (split : x = p ++ '>'.toUInt8 :: q) :
    endsComment (p.reverse ++ ['-'.toUInt8, '-'.toUInt8]) = false := by
  subst split
  rcases reversed : p.reverse with _ | ⟨a, _ | ⟨b, r⟩⟩
  · rfl
  · rfl
  · rw [List.cons_append, List.cons_append, endsComment_append_dashes, ← Bool.not_eq_true]
    intro ends
    obtain ⟨rfl, rfl⟩ : a = '-'.toUInt8 ∧ b = '-'.toUInt8 := by simpa using ends
    apply plain
    have front : p = r.reverse ++ ['-'.toUInt8, '-'.toUInt8] := by
      rw [← List.reverse_reverse p, reversed]
      simp
    exact ⟨r.reverse, q, by simp [front, commentEnd]⟩

theorem exists_split_of_dashes {x p q : Bytes}
    (early : '-'.toUInt8 :: '-'.toUInt8 :: (x ++ ['-'.toUInt8, '-'.toUInt8]) =
      p ++ '>'.toUInt8 :: q) :
    ∃ p' q', p = '-'.toUInt8 :: '-'.toUInt8 :: p' ∧ x = p' ++ '>'.toUInt8 :: q' := by
  match p with
  | [] => cases early
  | [_] => cases early
  | a :: b :: p =>
    simp only [List.cons_append, List.cons.injEq] at early
    obtain ⟨rfl, rfl, early⟩ := early
    rcases List.append_eq_append_iff.mp early with ⟨s, rfl, rest⟩ | ⟨s, rfl, rest⟩
    · have inside : '>'.toUInt8 ∈ ['-'.toUInt8, '-'.toUInt8] := by simp [rest]
      exact absurd inside (by decide)
    · cases s with
      | nil => cases rest
      | cons c s =>
        obtain ⟨rfl, -⟩ := List.cons_eq_cons.mp rest
        exact ⟨p, s, rfl, rfl⟩

theorem scan_comment {x : Bytes} (plain : ¬ commentEnd <:+: x) (t : Bytes) :
    ∃ size, scan ('<'.toUInt8 :: '!'.toUInt8 :: '-'.toUInt8 :: '-'.toUInt8 ::
      (x ++ '-'.toUInt8 :: '-'.toUInt8 :: '>'.toUInt8 :: t)) = .ok (some ⟨.skipped, size, t⟩) := by
  have shape : '-'.toUInt8 :: '-'.toUInt8 :: (x ++ '-'.toUInt8 :: '-'.toUInt8 :: '>'.toUInt8 :: t) =
      '-'.toUInt8 :: '-'.toUInt8 :: (x ++ ['-'.toUInt8, '-'.toUInt8]) ++ '>'.toUInt8 :: t := by
    simp
  rw [shape]
  generalize whole : '-'.toUInt8 :: '-'.toUInt8 :: (x ++ ['-'.toUInt8, '-'.toUInt8]) = inner
  have goesOn : ∀ p q, inner = p ++ '>'.toUInt8 :: q → endsComment (p.reverse ++ []) = false := by
    intro p q early
    obtain ⟨p, q, rfl, split⟩ := exists_split_of_dashes (whole.trans early)
    simpa using endsComment_of_append plain split
  have ended : endsComment (inner.reverse ++ []) = true := by
    simpa [← whole] using endsComment_append_dashes '-'.toUInt8 '-'.toUInt8 x.reverse
  have kind : (inner ++ '>'.toUInt8 :: t).head? = some '-'.toUInt8 := by
    rw [← whole]
    rfl
  have made : commentItem inner = .ok .skipped := by
    have dashes : (bytes "--").isPrefixOf inner = true := by
      rw [← whole]
      rfl
    rw [commentItem, if_pos dashes]
  refine ⟨inner.length + 3, ?_⟩
  rw [scan_markup, scanMarkup, if_pos (beq_self_eq_true _), scanDeclared]
  simp only [kind]
  rw [if_neg (by decide), if_pos (by decide), cut_stopsAfter goesOn ended, close]
  simp only [made]
  rfl

theorem scan_instruction {x : Bytes} (plain : '>'.toUInt8 ∉ x) (t : Bytes) :
    ∃ size, scan ('<'.toUInt8 :: '?'.toUInt8 :: (x ++ '?'.toUInt8 :: '>'.toUInt8 :: t)) =
      .ok (some ⟨if isDeclaration x then .declaration x else .instruction, size, t⟩) := by
  have shape : x ++ '?'.toUInt8 :: '>'.toUInt8 :: t = x ++ ['?'.toUInt8] ++ '>'.toUInt8 :: t := by
    simp
  rw [shape]
  have other : '>'.toUInt8 ≠ '?'.toUInt8 := by decide
  have bare : '>'.toUInt8 ∉ x ++ ['?'.toUInt8] := by
    simp [plain, other]
  have goesOn : ∀ p q, x ++ ['?'.toUInt8] = p ++ '>'.toUInt8 :: q →
      endsInstruction (p.reverse ++ ['?'.toUInt8]) = false := by
    intro p q early
    exact absurd (by simp [early]) bare
  have ended : endsInstruction ((x ++ ['?'.toUInt8]).reverse ++ ['?'.toUInt8]) = true := by
    rw [List.reverse_append]
    rfl
  have made : instructionItem (x ++ ['?'.toUInt8]) =
      .ok (if isDeclaration x then .declaration x else .instruction) := by
    simp [instructionItem]
  refine ⟨(x ++ ['?'.toUInt8]).length + 3, ?_⟩
  rw [scan_markup, scanMarkup, if_neg (by decide), if_pos (beq_self_eq_true _), scanInstruction,
    cut_stopsAfter goesOn ended, close]
  simp only [made]
  rfl

theorem next_ignored [EastAsian] {r : Reader} {item : Item} {size : Nat} {t : Bytes}
    (settled : r.settled = true) (scanned : scan r.rest = .ok (some ⟨item, size, t⟩))
    (aside : item = .skipped ∨ item = .instruction ∨ ∃ content, item = .declaration content) :
    r.next = .ok (some (.ignored, r.moved t (r.offset + size))) := by
  apply next_of_scan scanned
  rcases aside with rfl | rfl | ⟨content, rfl⟩
  · rfl
  · rfl
  · apply Reader.read_declaration_of_none
    rw [Reader.declared?, settled]
    rfl

theorem delivers_aside [EastAsian] {r : Reader} (settled : r.settled = true) {a : Aside}
    (plain : a.Plain) (t : Bytes) (n : Nat) :
    ∃ m, Delivers (r.moved (Utf8.encode a.text ++ t) n) [.ignored] (r.moved t m) := by
  have single : ∀ {item size}, scan (Utf8.encode a.text ++ t) = .ok (some ⟨item, size, t⟩) →
      (item = .skipped ∨ item = .instruction ∨ ∃ content, item = .declaration content) →
      ∃ m, Delivers (r.moved (Utf8.encode a.text ++ t) n) [.ignored] (r.moved t m) := by
    intro item size scanned aside
    have next := next_ignored (r := r.moved (Utf8.encode a.text ++ t) n) settled scanned aside
    exact ⟨n + size, .next next (.done _)⟩
  cases a with
  | comment c =>
    have noEnd : ¬ commentEnd <:+: Utf8.encode c := by
      have ascii : ∀ d ∈ ['-', '-', '>'], d.toNat < 0x80 := by simp
      have same : commentEnd = Utf8.encode ['-', '-', '>'] := by decide
      rw [same]
      exact mt (Utf8.infix_of_infix_encode ascii) plain
    obtain ⟨size, scanned⟩ := scan_comment noEnd t
    have shape : Utf8.encode (Aside.text (.comment c)) ++ t =
        '<'.toUInt8 :: '!'.toUInt8 :: '-'.toUInt8 :: '-'.toUInt8 ::
          (Utf8.encode c ++ '-'.toUInt8 :: '-'.toUInt8 :: '>'.toUInt8 :: t) := by
      have close : Utf8.encode ['-', '-', '>'] =
        ['-'.toUInt8, '-'.toUInt8, '>'.toUInt8] := by decide
      rw [Aside.text, Utf8.encode_cons (by decide), Utf8.encode_cons (by decide),
        Utf8.encode_cons (by decide), Utf8.encode_cons (by decide), Utf8.encode_append, close]
      simp
    rw [← shape] at scanned
    exact single scanned (.inl rfl)
  | instruction target c =>
    obtain ⟨front, back⟩ : '>' ∉ target ∧ '>' ∉ c := plain
    have bare : '>' ∉ target ++ ' ' :: c := by
      simp [front, back]
    obtain ⟨size, scanned⟩ := scan_instruction (Utf8.not_mem_encode (by decide) bare) t
    have shape : Utf8.encode (Aside.text (.instruction target c)) ++ t =
        '<'.toUInt8 :: '?'.toUInt8 ::
          (Utf8.encode (target ++ ' ' :: c) ++ '?'.toUInt8 :: '>'.toUInt8 :: t) := by
      have close : Utf8.encode ['?', '>'] = ['?'.toUInt8, '>'.toUInt8] := by decide
      have joined : target ++ ' ' :: (c ++ ['?', '>']) = (target ++ ' ' :: c) ++ ['?', '>'] := by
        simp
      rw [Aside.text, Utf8.encode_cons (by decide), Utf8.encode_cons (by decide), joined,
        Utf8.encode_append, close]
      simp
    rw [← shape] at scanned
    apply single scanned
    split
    · exact .inr (.inr ⟨_, rfl⟩)
    · exact .inr (.inl rfl)

end Asides

end XmlDelta.Markup
