import XmlDelta.Proofs.Compare.Noise
import XmlDelta.Proofs.Document.Build
import XmlDelta.Proofs.Document.Layout
import XmlDelta.Proofs.Document.Locate
import XmlDelta.Proofs.Markup.Delivery

set_option autoImplicit false

namespace XmlDelta.Document

open XmlDelta.Markup
open XmlDelta.Compare (compareDocuments compareLocated_self)

theorem noMarkup_tabs (n : Nat) : NoMarkup (tabs n) := by
  constructor <;> simp [tabs, List.mem_replicate]

theorem noMarkup_lineBreak (n : Nat) : NoMarkup (lineBreak n) :=
  .append (by constructor <;> decide) (noMarkup_tabs n)

namespace Element

/-- A node that needs no escaping: names where names belong, and no character with a meaning. -/
structure Plain (e : Element) : Prop where
  tag : isName e.tag = true
  attributes : ∀ a ∈ e.attributes.entries, PlainEntry a
  text : ∀ s ∈ e.text, NoMarkup s

instance (e : Element) : Decidable e.Plain :=
  decidable_of_iff
    (isName e.tag = true ∧ (∀ a ∈ e.attributes.entries, PlainEntry a) ∧ ∀ s ∈ e.text, NoMarkup s)
    ⟨fun plain => ⟨plain.1, plain.2.1, plain.2.2⟩,
      fun plain => ⟨plain.tag, plain.attributes, plain.text⟩⟩

def Writable (e : Element) : Prop :=
  ∀ x ∈ e.nodes, x.Plain

instance (e : Element) : Decidable e.Writable :=
  inferInstanceAs (Decidable (∀ x ∈ e.nodes, x.Plain))

theorem Writable.root {e : Element} (writable : e.Writable) : e.Plain :=
  writable e (by rw [nodes_eq]; exact List.mem_cons_self)

theorem Writable.child {e c : Element} (writable : e.Writable) (child : c ∈ e.children) :
    c.Writable := by
  intro x inside
  apply writable
  rw [nodes_eq]
  exact List.mem_cons_of_mem _ (List.mem_flatMap.mpr ⟨c, child, inside⟩)

theorem Plain.trimmedText {e : Element} (plain : e.Plain) : NoMarkup e.trimmedText := by
  unfold Element.trimmedText
  cases text : e.text with
  | none => constructor <;> decide
  | some s =>
    have kept := plain.text s text
    constructor
    · intro inside
      rw [Text.toList_trim] at inside
      exact kept.noTag (Text.mem_of_mem_trimChars inside)
    · intro inside
      rw [Text.toList_trim] at inside
      exact kept.noReference (Text.mem_of_mem_trimChars inside)

theorem Plain.textLead {e : Element} (plain : e.Plain) (n : Nat) :
    NoMarkup (textLead n e.trimmedText) := by
  unfold Document.textLead
  split
  · constructor <;> decide
  · exact (noMarkup_lineBreak (n + 1)).append plain.trimmedText

section Read

variable [Text.EastAsian]

theorem delivers_gap {before : String} (plain : NoMarkup before) (n : Nat) {r : Reader}
    {rest : List Char} {opened : List Bytes}
    (here : At r (before.toList ++ (lineBreak n).toList ++ '<' :: rest) opened) :
    ∃ r', Delivers r [.text (.ok (before ++ lineBreak n))] r' ∧ At r' ('<' :: rest) opened := by
  rw [← String.toList_append] at here
  refine delivers_text here ?_ (plain.append (noMarkup_lineBreak n))
  intro empty
  have none := congrArg String.toList empty
  simp [lineBreak] at none

mutual

theorem delivers_layout (n : Nat) (e : Element) (writable : e.Writable) {r : Reader}
    {rest : List Char} {opened : List Bytes} (here : At r (e.markup n ++ rest) opened) :
    ∃ r', Delivers r (e.layout n).events r' ∧ At r' rest opened := by
  cases e with
  | mk tag as text cs =>
    have plain := writable.root
    rw [markup_append] at here
    obtain ⟨r₁, start, inside⟩ := delivers_opening here plain.tag plain.attributes
    obtain ⟨r₂, below, behind⟩ := delivers_layoutBelow n _ (plain.textLead n) cs
      (fun c child => writable.child child) inside
    obtain ⟨r₃, finish, after⟩ := delivers_closing behind plain.tag
    rw [layout_eq, Piece.events]
    exact ⟨r₃, start.append (below.append finish), after⟩

theorem delivers_layoutBelow (n : Nat) (before : String) (plain : NoMarkup before)
    (cs : List Element) (writable : ∀ c ∈ cs, c.Writable) {r : Reader} {rest : List Char}
    {opened : List Bytes}
    (here : At r (before.toList ++ spell (cs.flatMap (lines (n + 1))) ++ (lineBreak n).toList ++
      '<' :: rest) opened) :
    ∃ r', Delivers r (Piece.eventsOfAll (layoutBelow n before cs)) r' ∧
      At r' ('<' :: rest) opened := by
  cases cs with
  | nil =>
    rw [List.flatMap_nil, spell, List.flatMap_nil, List.append_nil] at here
    obtain ⟨r', gap, after⟩ := delivers_gap plain n here
    exact ⟨r', gap, after⟩
  | cons c cs =>
    -- What stands before the child runs up to its `<` and is one event with its line break.
    rw [spell_lines_cons] at here
    simp only [List.append_assoc] at here
    rw [markup_append, ← List.append_assoc] at here
    obtain ⟨r₁, gap, first⟩ := delivers_gap plain (n + 1) here
    rw [← markup_append] at first
    obtain ⟨r₂, child, behind⟩ := delivers_layout (n + 1) c (writable c (by simp)) first
    obtain ⟨r₃, below, after⟩ := delivers_layoutBelow n "" (by constructor <;> decide) cs
      (fun d inside => writable d (by simp [inside])) (by simpa using behind)
    exact ⟨r₃, gap.append (child.append below), after⟩

end

theorem delivers_render (n : Nat) (e : Element) (writable : e.Writable) :
    ∃ before r', (∀ x ∈ before, Outer x) ∧
      Delivers (.ofText (e.render n)) (before ++ (e.layout n).events) r' ∧ r'.rest = [] := by
  have rendered := e.toList_render n
  have markup := e.markup_append n []
  rw [List.append_nil] at markup
  cases n with
  | zero =>
    have shape : (e.render 0).toList = e.markup 0 := rendered
    have here := at_ofText (shape.trans markup) (by decide)
    rw [shape, ← List.append_nil (e.markup 0)] at here
    obtain ⟨r', delivers, after⟩ := delivers_layout 0 e writable here
    exact ⟨[], r', by simp, delivers, after.rest⟩
  | succ n =>
    -- The indentation of the first line is character data of its own, outside the root.
    have here := at_ofText (s := e.render (n + 1)) (by rw [rendered, tabs]; simp; rfl) (by decide)
    rw [rendered, markup] at here
    obtain ⟨r₁, gap, first⟩ := delivers_text here (by simp [tabs]) (noMarkup_tabs (n + 1))
    rw [← markup, ← List.append_nil (e.markup (n + 1))] at first
    obtain ⟨r', delivers, after⟩ := delivers_layout (n + 1) e writable first
    refine ⟨[.text (.ok (tabs (n + 1)))], r', ?_, gap.append delivers, after.rest⟩
    intro x inside
    rw [List.mem_singleton] at inside
    exact inside ▸ .blank (isBlankText_tabs (n + 1))

theorem exists_parseText_render (n : Nat) (e : Element) (writable : e.Writable) :
    ∃ f, parseText (e.render n) = .ok f ∧ Alike Eq e f := by
  obtain ⟨before, r', outer, delivers, atEnd⟩ := delivers_render n e writable
  obtain ⟨f, denoted, alike⟩ := e.element?_layout n
  refine ⟨f, (parseFrom_eq_ok_iff _ f).mpr ?_, alike⟩
  rw [delivers.events_eq atEnd]
  exact ⟨rfl, build_of_denotes (.of_node outer _ denoted)⟩

theorem parseText_render (e : Element) (n : Nat) (writable : e.Writable) :
    ∃ f, parseText (e.render n) = .ok f ∧ Alike Eq e f ∧ (∀ m, f.render m = e.render m) ∧
      ∀ tag, (∃ x ∈ e.nodes, x.tag = tag) → compareDocuments e f tag = .compared ⟨[], []⟩ := by
  obtain ⟨f, parsed, alike⟩ := exists_parseText_render n e writable
  refine ⟨f, parsed, alike, ?_, ?_⟩
  · intro m
    rw [render, lines_eq_of_alike alike m, render]
  · intro tag present
    have equivalent : Equivalent e f := alike.weaken fun as _ same => same ▸ .refl as.entries
    rw [compareDocuments, compareLocated_self (locate_alike equivalent tag),
      if_pos ((locate_isSome_iff e tag).mpr present)]

end Read

theorem parseText_render_nested :
    let c : Element := { tag := "c.d", attributes := ({} : Attributes).set "k" "x > y" }
    let b : Element := { tag := "b:b", text := some " \n" }
    let e : Element := { tag := "_a", text := some " two\n\tlines ", children := [c, b] }
    e.Writable ∧ ∃ f, parseText (e.render 1) = .ok f ∧ Alike Eq e f ∧
      (∀ m, f.render m = e.render m) ∧
        ∀ tag, (∃ x ∈ e.nodes, x.tag = tag) → compareDocuments e f tag = .compared ⟨[], []⟩ := by
  intro c b e
  have writable : e.Writable := by decide
  exact ⟨writable, parseText_render e 1 writable⟩

end Element

end XmlDelta.Document
