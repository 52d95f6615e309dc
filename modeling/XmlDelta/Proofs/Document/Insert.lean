import XmlDelta.Proofs.Compare.Noise
import XmlDelta.Proofs.Document.Blanks
import XmlDelta.Proofs.Document.Locate

set_option autoImplicit false

namespace XmlDelta.Document

open XmlDelta.Markup
open XmlDelta.Text (EastAsian Utf8.encode isBlank isBlankText)
open XmlDelta.Compare (compareDocuments compareLocated_self)

section Inserted

variable [EastAsian]

namespace Builder

theorem run_textEvents {raw : Bytes} (some : raw ≠ []) (b : Builder) :
    b.run (textEvents raw) = b.step (.text (textOf raw)) := by
  rw [textEvents, if_neg some, run_singleton]

omit [EastAsian] in
theorem exists_of_step_text {b b' : Builder} {p : Payload String}
    (stepped : b.step (.text p) = .ok b') : ∃ s, p = .ok s := by
  cases p with
  | error f => cases stepped
  | ok s => exact ⟨s, rfl⟩

theorem run_textEvents_append {b b' c : Builder} {u v : Bytes} {s : String}
    (some : u ≠ []) (left : textOf u = .ok s) (first : b.step (.text (.ok s)) = .ok b')
    (rest : b'.run (textEvents v) = .ok c) : b.run (textEvents (u ++ v)) = .ok c := by
  have both : u ++ v ≠ [] := by simp [some]
  rw [run_textEvents both]
  by_cases nothing : v = []
  · subst nothing
    cases rest
    rwa [List.append_nil, left]
  · rw [run_textEvents nothing] at rest
    obtain ⟨t, right⟩ := exists_of_step_text rest
    rw [textOf_append left right, step_text_append, first]
    rwa [right] at rest

theorem exists_of_run_textEvents_append {b c : Builder} {u : List Char} (closed : Closed u)
    {v : Bytes} (ran : b.run (textEvents (Utf8.encode u ++ v)) = .ok c) :
    ∃ b₁, b.run (textEvents (Utf8.encode u)) = .ok b₁ ∧ b₁.run (textEvents v) = .ok c := by
  by_cases front : Utf8.encode u = []
  · rw [front, List.nil_append] at ran
    rw [front]
    exact ⟨b, rfl, ran⟩
  by_cases back : v = []
  · rw [back, List.append_nil] at ran
    rw [back]
    exact ⟨c, ran, rfl⟩
  have both : Utf8.encode u ++ v ≠ [] := by simp [front]
  rw [run_textEvents both] at ran
  obtain ⟨w, whole⟩ := exists_of_step_text ran
  obtain ⟨s, t, rfl, left, right⟩ := exists_textOf_split closed whole
  rw [whole, step_text_append] at ran
  obtain ⟨b₁, first, second⟩ := bind_eq_ok_iff.mp ran
  refine ⟨b₁, ?_, ?_⟩
  · rw [run_textEvents front, left, first]
  · rw [run_textEvents back, right, second]

omit [EastAsian] in
theorem step_ignored (b : Builder) : b.step .ignored = .ok b :=
  rfl

theorem textOf_blank {zs : List Char} (blank : zs.all isBlank = true) :
    textOf (Utf8.encode zs) = .ok (String.ofList zs) := by
  apply textOf_plain
  intro inside
  exact absurd (List.all_eq_true.mp blank '&' inside) (by decide)

omit [EastAsian] in
theorem fresh_of_run {es : List Event} {b c : Builder} (ran : b.run es = .ok c) {x : Event}
    (last : x ∈ es.getLast?) (tag : x.isTag = true) : c.Fresh := by
  obtain ⟨es, rfl⟩ := List.getLast?_eq_some_iff.mp last
  obtain ⟨b₁, -, stepped⟩ := exists_of_run_append ran
  rw [run_singleton] at stepped
  exact fresh_of_step_tag tag stepped

theorem Fresh.run_blank_append {b c : Builder} (fresh : b.Fresh) {zs : List Char}
    (blank : zs.all isBlank = true) {w : Bytes} (ran : b.run (textEvents w) = .ok c) :
    ∃ c', b.run (textEvents (Utf8.encode zs ++ w)) = .ok c' ∧ Alike c c' := by
  by_cases nothing : Utf8.encode zs = []
  · rw [nothing, List.nil_append]
    exact ⟨c, ran, .refl c⟩
  · have blankText : isBlankText (String.ofList zs) = true := by simpa [isBlankText] using blank
    obtain ⟨b', first, -, alike⟩ := b.exists_step_blank blankText
    obtain ⟨c', rest, alike'⟩ := (alike fresh).run ran
    exact ⟨c', run_textEvents_append nothing (textOf_blank blank) first rest, alike'⟩

theorem run_append_blank {b c : Builder} {zs : List Char} (blank : zs.all isBlank = true)
    {w : Bytes} (ran : b.run (textEvents w) = .ok c) :
    ∃ c', b.run (textEvents (w ++ Utf8.encode zs)) = .ok c' ∧ Near c c' := by
  have blankText : isBlankText (String.ofList zs) = true := by simpa [isBlankText] using blank
  by_cases nothing : Utf8.encode zs = []
  · rw [nothing, List.append_nil]
    exact ⟨c, ran, (Alike.refl c).near⟩
  · obtain ⟨c', last, near, -⟩ := c.exists_step_blank blankText
    have rest : c.run (textEvents (Utf8.encode zs)) = .ok c' := by
      rw [run_textEvents nothing, textOf_blank blank, last]
    refine ⟨c', ?_, near⟩
    by_cases front : w = []
    · subst front
      cases ran
      exact rest
    · rw [run_textEvents front] at ran
      obtain ⟨s, text⟩ := exists_of_step_text ran
      exact run_textEvents_append front text (text ▸ ran) rest

end Builder

section Builds

variable {es hs : List Event} {e : Element}

omit [EastAsian] in
theorem build_eq_ok_iff :
    build es = .ok e ↔ ∃ b, Builder.run {} es = .ok b ∧ b.finish = .ok e :=
  bind_eq_ok_iff

theorem build_ignored {u : List Char} (closed : Closed u) {v : Bytes}
    (built : build (es ++ (textEvents (Utf8.encode u ++ v) ++ hs)) = .ok e) :
    build (es ++ (textEvents (Utf8.encode u) ++ .ignored :: (textEvents v ++ hs))) = .ok e := by
  obtain ⟨b, ran, finished⟩ := build_eq_ok_iff.mp built
  obtain ⟨b₁, front, ran⟩ := Builder.exists_of_run_append ran
  obtain ⟨b₃, text, back⟩ := Builder.exists_of_run_append ran
  obtain ⟨b₂, left, right⟩ := Builder.exists_of_run_textEvents_append closed text
  apply build_eq_ok_iff.mpr
  refine ⟨b, ?_, finished⟩
  rw [Builder.run_append_of_ok front, Builder.run_append_of_ok left,
    Builder.run_cons b₂.step_ignored, Builder.run_append_of_ok right, back]

theorem build_blank {zs : List Char} (blank : zs.all isBlank = true) {w w' : Bytes}
    (beside : (∃ x ∈ es.getLast?, x.isTag = true) ∧ w' = Utf8.encode zs ++ w ∨
      (∃ x ∈ hs.head?, x.isTag = true) ∧ w' = w ++ Utf8.encode zs)
    (built : build (es ++ (textEvents w ++ hs)) = .ok e) :
    ∃ f, build (es ++ (textEvents w' ++ hs)) = .ok f ∧ Element.Alike Eq e f := by
  obtain ⟨b, ran, finished⟩ := build_eq_ok_iff.mp built
  obtain ⟨b₁, front, ran⟩ := Builder.exists_of_run_append ran
  obtain ⟨b₂, text, back⟩ := Builder.exists_of_run_append ran
  obtain ⟨c₂, c, text', back', alike⟩ : ∃ c₂ c, b₁.run (textEvents w') = .ok c₂ ∧
      c₂.run hs = .ok c ∧ Builder.Alike b c := by
    rcases beside with ⟨⟨x, last, tag⟩, rfl⟩ | ⟨⟨x, first, tag⟩, rfl⟩
    · have fresh := Builder.fresh_of_run front last tag
      obtain ⟨c₂, text', alike⟩ := fresh.run_blank_append blank text
      obtain ⟨c, back', alike'⟩ := alike.run back
      exact ⟨c₂, c, text', back', alike'⟩
    · obtain ⟨hs, rfl⟩ := List.head?_eq_some_iff.mp first
      obtain ⟨c₂, text', near⟩ := Builder.run_append_blank blank text
      obtain ⟨c, back', alike⟩ := near.run tag back
      exact ⟨c₂, c, text', back', alike⟩
  obtain ⟨f, finished', same⟩ := alike.finish finished
  refine ⟨f, build_eq_ok_iff.mpr ⟨c, ?_, finished'⟩, same⟩
  rw [Builder.run_append_of_ok front, Builder.run_append_of_ok text', back']

end Builds

theorem exists_delivers_of_parseText {d : String} {e : Element} (parsed : parseText d = .ok e) :
    ∃ gs r, Delivers (.ofText d) gs r ∧ r.rest = [] ∧ build gs = .ok e := by
  obtain ⟨complete, built⟩ := (parseFrom_eq_ok_iff _ e).mp parsed
  have read : Reader.eventsFrom [] (.ofText d) = ((Reader.ofText d).events.1, none) :=
    Prod.ext rfl complete
  obtain ⟨gs, r, same, delivers, atEnd⟩ := Delivers.exists_of_eventsFrom read
  rw [same] at built
  exact ⟨gs, r, delivers, atEnd, built⟩

theorem parseText_of_delivers {d : String} {gs : List Event} {r : Reader}
    (delivers : Delivers (.ofText d) gs r) (atEnd : r.rest = []) : parseText d = build gs := by
  rw [parseText, parseFrom, delivers.events_eq atEnd]

/-- No comparison tells the two documents apart, whichever is the old one. -/
def Indistinct (e f : Element) : Prop :=
  ∀ tag, (∃ x ∈ e.nodes, x.tag = tag) →
    compareDocuments e f tag = .compared ⟨[], []⟩ ∧ compareDocuments f e tag = .compared ⟨[], []⟩

omit [EastAsian] in
theorem indistinct_of_alike {e f : Element} (alike : Element.Alike Eq e f) : Indistinct e f := by
  intro tag present
  have there : Element.Equivalent e f := alike.weaken fun as _ same => same ▸ .refl as.entries
  have back : Element.Equivalent f e := there.symm fun _ _ same => same.symm
  have found : (locate e tag).isSome = true := (locate_isSome_iff e tag).mpr present
  have found' : (locate f tag).isSome = true := by
    have both := locate_alike there tag
    generalize locate e tag = l, locate f tag = m at both found ⊢
    cases both with
    | none => exact found
    | some _ => rfl
  constructor
  · rw [compareDocuments, compareLocated_self (locate_alike there tag), if_pos found]
  · rw [compareDocuments, compareLocated_self (locate_alike back tag), if_pos found']

theorem parseText_inserted {d : String} {e : Element} (parsed : parseText d = .ok e)
    (xs ys : List Char) :
    (Outside d xs ys → ∀ a : Aside, a.Plain →
      parseText (inserted xs a.text ys) = .ok e ∧ Indistinct e e) ∧
    (BesideTag d xs ys → ∀ zs : List Char, zs.all isBlank = true →
      ∃ f, parseText (inserted xs zs ys) = .ok f ∧ Element.Alike Eq e f ∧ Indistinct e f) := by
  obtain ⟨gs, r, delivers, atEnd, built⟩ := exists_delivers_of_parseText parsed
  constructor
  · intro outside a plain
    obtain ⟨es, u, v, hs, r', closed, rfl, longer, atEnd'⟩ :=
      exists_delivers_aside outside delivers atEnd plain
    refine ⟨?_, indistinct_of_alike (.refl (fun _ => rfl) e)⟩
    rw [parseText_of_delivers longer atEnd']
    exact build_ignored closed built
  · intro beside zs blank
    have noTag : '<' ∉ zs := by
      intro inside
      exact absurd (List.all_eq_true.mp blank _ inside) (by decide)
    have noMark : mark ∉ zs := by
      intro inside
      exact absurd (List.all_eq_true.mp blank _ inside) (by decide)
    obtain ⟨es, w, w', hs, r', rfl, longer, atEnd', place⟩ :=
      exists_delivers_blank beside delivers atEnd noTag noMark
    obtain ⟨f, built', alike⟩ := build_blank blank place built
    refine ⟨f, ?_, alike, indistinct_of_alike alike⟩
    rw [parseText_of_delivers longer atEnd', built']

end Inserted

theorem parseText_inserted_text :
    let d := "<r>a&lt;b<c/></r>"
    let e : Element := { tag := "r", text := some "a<b", children := [{ tag := "c" }] }
    let note : Aside := .comment [' ', '>', '-']
    let blanks : List Char := [' ', '\t', '\r', '\n']
    let noted := inserted "<r>a&lt;".toList note.text "b<c/></r>".toList
    let spaced := inserted "<r>a&lt;b".toList blanks "<c/></r>".toList
    parseText d = .ok e ∧
      (Outside d "<r>a&lt;".toList "b<c/></r>".toList ∧ note.Plain ∧
        noted = "<r>a&lt;<!-- >--->b<c/></r>" ∧ parseText noted = .ok e ∧ Indistinct e e) ∧
      (BesideTag d "<r>a&lt;b".toList "<c/></r>".toList ∧ blanks.all isBlank = true ∧
        spaced = "<r>a&lt;b \t\r\n<c/></r>" ∧
        ∃ f, parseText spaced = .ok f ∧ Element.Alike Eq e f ∧ Indistinct e f) := by
  intro d e note blanks noted spaced
  have start : Reader.ofText d = ⟨bytes "<r>a&lt;b<c/></r>", 0, [], .utf8, true⟩ :=
    ofText_eq (by decide)
  have first : (Reader.mk (bytes "<r>a&lt;b<c/></r>") 0 [] .utf8 true).next =
      .ok (some (.start (.ok ⟨"r", {}⟩),
        ⟨bytes "a&lt;b<c/></r>", 3, [bytes "r"], .utf8, true⟩)) := by
    with_unfolding_all rfl
  rw [← start] at first
  have second : (Reader.mk (bytes "a&lt;b<c/></r>") 3 [bytes "r"] .utf8 true).next =
      .ok (some (.text (.ok "a<b"), ⟨bytes "<c/></r>", 9, [bytes "r"], .utf8, true⟩)) := by
    with_unfolding_all rfl
  have third : (Reader.mk (bytes "<c/></r>") 9 [bytes "r"] .utf8 true).next =
      .ok (some (.empty (.ok ⟨"c", {}⟩), ⟨bytes "</r>", 13, [bytes "r"], .utf8, true⟩)) := by
    with_unfolding_all rfl
  have fourth : (Reader.mk (bytes "</r>") 13 [bytes "r"] .utf8 true).next =
      .ok (some (.finish, ⟨[], 17, [], .utf8, true⟩)) := by rfl
  have opening := Delivers.next first (.done _)
  have front := Delivers.next first (.next second (.done _))
  have whole := Delivers.next first (.next second (.next third (.next fourth (.done _))))
  have parsed : parseText d = .ok e := by
    rw [parseText_of_delivers whole rfl]
    rfl
  have outside : Outside d "<r>a&lt;".toList "b<c/></r>".toList :=
    ⟨by decide, _, _, "a&lt;".toList, opening, by decide, by decide, by simp [Closed]⟩
  have beside : BesideTag d "<r>a&lt;b".toList "<c/></r>".toList :=
    ⟨by decide, _, _, front, by decide, .inr ⟨_, _, third, rfl⟩⟩
  have plain : note.Plain := by
    unfold note Aside.Plain
    decide
  have blank : blanks.all isBlank = true := by decide
  exact ⟨parsed, ⟨outside, plain, by decide, (parseText_inserted parsed _ _).1 outside note plain⟩,
    ⟨beside, blank, by decide, (parseText_inserted parsed _ _).2 beside blanks blank⟩⟩

end XmlDelta.Document
