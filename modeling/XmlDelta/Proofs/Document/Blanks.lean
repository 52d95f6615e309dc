import XmlDelta.Proofs.Document.Alike
import XmlDelta.Proofs.Document.Build
import XmlDelta.Proofs.Markup.Position
import XmlDelta.Proofs.Text.Blank

set_option autoImplicit false

namespace XmlDelta.Document

open XmlDelta.Markup
open XmlDelta.Text (trimChars trim isBlankText)

namespace Element

theorem trimmedText_eq (e : Element) : e.trimmedText = trim (e.text.getD "") := by
  unfold trimmedText
  cases e.text with
  | none => rfl
  | some s => rfl

end Element

namespace OpenElement

def said (o : OpenElement) : List Char :=
  (o.element.text.getD "").toList

structure Near (o p : OpenElement) : Prop where
  tag : o.element.tag = p.element.tag
  attributes : o.element.attributes = p.element.attributes
  children : List.Forall₂ (Element.Alike Eq) o.element.children p.element.children
  seenChild : o.seenChild = p.seenChild
  text : trimChars o.said = trimChars p.said

structure Alike (o p : OpenElement) : Prop extends Near o p where
  more : o.seenChild = false → ∀ s, trimChars (o.said ++ s) = trimChars (p.said ++ s)

section PushText

variable (o : OpenElement) (s : String)

@[simp]
theorem tag_pushText : (o.pushText s).element.tag = o.element.tag := by
  unfold pushText
  split <;> rfl

@[simp]
theorem attributes_pushText : (o.pushText s).element.attributes = o.element.attributes := by
  unfold pushText
  split <;> rfl

@[simp]
theorem children_pushText : (o.pushText s).element.children = o.element.children := by
  unfold pushText
  split <;> rfl

@[simp]
theorem seenChild_pushText : (o.pushText s).seenChild = o.seenChild := by
  unfold pushText
  split <;> rfl

theorem said_pushText : (o.pushText s).said = o.said ++ if o.seenChild then [] else s.toList := by
  cases seen : o.seenChild <;> simp [pushText, seen, said]

end PushText

theorem pushText_append (o : OpenElement) (s t : String) :
    o.pushText (s ++ t) = (o.pushText s).pushText t := by
  cases seen : o.seenChild with
  | true => simp [pushText, seen]
  | false => simp [pushText, seen, String.append_assoc]

theorem Alike.refl (o : OpenElement) : Alike o o where
  tag := rfl
  attributes := rfl
  children := List.forall₂_same.mpr fun c _ => .refl (fun _ => rfl) c
  seenChild := rfl
  text := rfl
  more _ _ := rfl

theorem Near.trimmedText_eq {o p : OpenElement} (near : Near o p) :
    o.element.trimmedText = p.element.trimmedText := by
  rw [Element.trimmedText_eq, Element.trimmedText_eq, ← String.toList_inj, Text.toList_trim,
    Text.toList_trim]
  exact near.text

theorem Near.closed {o p : OpenElement} (near : Near o p) :
    Element.Alike Eq o.closed p.closed := by
  have children : List.Forall₂ (Element.Alike Eq) o.closed.children p.closed.children :=
    List.forall₂_reverse_iff.mpr near.children
  exact .intro near.tag near.attributes near.trimmedText_eq children

theorem Near.sealed {o p : OpenElement} (near : Near o p) :
    Alike { o with seenChild := true } { p with seenChild := true } where
  tag := near.tag
  attributes := near.attributes
  children := near.children
  seenChild := rfl
  text := near.text
  more := by rintro ⟨⟩

theorem Near.pushChild {o p : OpenElement} (near : Near o p) {c d : Element}
    (alike : Element.Alike Eq c d) : Alike (o.pushChild c) (p.pushChild d) where
  tag := near.tag
  attributes := near.attributes
  children := .cons alike near.children
  seenChild := rfl
  text := near.text
  more := by rintro ⟨⟩

theorem Alike.pushText {o p : OpenElement} (alike : Alike o p) (s : String) :
    Alike (o.pushText s) (p.pushText s) where
  tag := by simpa using alike.tag
  attributes := by simpa using alike.attributes
  children := by simpa using alike.children
  seenChild := by simpa using alike.seenChild
  text := by
    rw [said_pushText, said_pushText, ← alike.seenChild]
    cases seen : o.seenChild with
    | true => simpa using alike.text
    | false => exact alike.more seen s.toList
  more := by
    intro seen t
    rw [seenChild_pushText] at seen
    rw [said_pushText, said_pushText, ← alike.seenChild, List.append_assoc, List.append_assoc]
    exact alike.more seen _

theorem near_pushText_blank (o : OpenElement) {s : String} (blank : isBlankText s = true) :
    Near o (o.pushText s) where
  tag := by simp
  attributes := by simp
  children := by simpa using (Alike.refl o).children
  seenChild := by simp
  text := by
    rw [said_pushText]
    cases o.seenChild with
    | true => simp
    | false => exact (Text.trimChars_append_right _ blank).symm

-- An element is fresh when its text has not begun, or cannot go on.
def Fresh (o : OpenElement) : Prop :=
  o.seenChild = true ∨ o.element.text = none

theorem Fresh.alike_pushText_blank {o : OpenElement} (fresh : o.Fresh) {s : String}
    (blank : isBlankText s = true) : Alike o (o.pushText s) where
  toNear := near_pushText_blank o blank
  more seen t := by
    have silent : o.said = [] := by
      rcases fresh with seen' | none
      · rw [seen] at seen'
        cases seen'
      · simp [said, none]
    rw [said_pushText, silent, seen, List.nil_append, List.nil_append]
    exact (Text.trimChars_append_left blank t).symm

end OpenElement

inductive NearStack : List OpenElement → List OpenElement → Prop where
  | nil : NearStack [] []
  | cons {o p : OpenElement} {os ps : List OpenElement} (top : OpenElement.Near o p)
    (below : List.Forall₂ OpenElement.Alike os ps) : NearStack (o :: os) (p :: ps)

theorem NearStack.of_alike {os ps : List OpenElement}
    (alike : List.Forall₂ OpenElement.Alike os ps) : NearStack os ps := by
  cases alike with
  | nil => exact .nil
  | cons top below => exact .cons top.toNear below

namespace Builder

structure Alike (b c : Builder) : Prop where
  stack : List.Forall₂ OpenElement.Alike b.stack c.stack
  root : Option.Rel (Element.Alike Eq) b.root c.root

structure Near (b c : Builder) : Prop where
  stack : NearStack b.stack c.stack
  root : Option.Rel (Element.Alike Eq) b.root c.root

def Fresh (b : Builder) : Prop :=
  ∀ o ∈ b.stack.head?, o.Fresh

theorem step_text_nil (root : Option Element) (s : String) :
    step ⟨[], root⟩ (.text (.ok s)) =
      if isBlankText s then .ok ⟨[], root⟩ else .error .textOutsideRoot :=
  rfl

theorem step_text_cons (o : OpenElement) (os : List OpenElement) (root : Option Element)
    (s : String) :
    step ⟨o :: os, root⟩ (.text (.ok s)) = .ok ⟨o.pushText s :: os, root⟩ :=
  rfl

theorem Alike.refl (b : Builder) : Alike b b where
  stack := List.forall₂_same.mpr fun o _ => .refl o
  root := by
    cases b.root with
    | none => exact .none
    | some e => exact .some (.refl (fun _ => rfl) e)

theorem Alike.near {b c : Builder} (alike : Alike b c) : Near b c :=
  ⟨.of_alike alike.stack, alike.root⟩

theorem alike_attach {os ps : List OpenElement} (stack : NearStack os ps)
    {root root' : Option Element} (roots : Option.Rel (Element.Alike Eq) root root')
    {e f : Element} (alike : Element.Alike Eq e f) :
    Alike (attach ⟨os, root⟩ e) (attach ⟨ps, root'⟩ f) := by
  cases stack with
  | nil => exact ⟨.nil, .some alike⟩
  | cons top below => exact ⟨.cons (top.pushChild alike) below, roots⟩

theorem alike_seeChild {os ps : List OpenElement} (stack : NearStack os ps) :
    List.Forall₂ OpenElement.Alike (seeChild os) (seeChild ps) := by
  cases stack with
  | nil => exact .nil
  | cons top below => exact .cons top.sealed below

theorem Near.step_tag {b c b' : Builder} (near : Near b c) {x : Event} (tag : x.isTag = true)
    (stepped : b.step x = .ok b') : ∃ c', c.step x = .ok c' ∧ Alike b' c' := by
  obtain ⟨os, root⟩ := b
  obtain ⟨ps, root'⟩ := c
  obtain ⟨stack, roots⟩ := near
  cases x with
  | start t =>
    cases roots with
    | some _ => cases stepped
    | none =>
      cases t with
      | error f => cases stepped
      | ok t =>
        cases stepped
        exact ⟨_, rfl, .cons (.refl _) (alike_seeChild stack), .none⟩
  | empty t =>
    cases roots with
    | some _ => cases stepped
    | none =>
      cases t with
      | error f => cases stepped
      | ok t =>
        cases stepped
        exact ⟨_, rfl, alike_attach stack .none (.refl (fun _ => rfl) _)⟩
  | finish =>
    cases stack with
    | nil => cases stepped
    | cons top below =>
      cases stepped
      exact ⟨_, rfl, alike_attach (.of_alike below) roots top.closed⟩
  | text s => cases tag
  | cdata s => cases tag
  | ignored => cases tag

theorem Alike.step {b c b' : Builder} (alike : Alike b c) {x : Event}
    (stepped : b.step x = .ok b') : ∃ c', c.step x = .ok c' ∧ Alike b' c' := by
  by_cases tag : x.isTag = true
  · exact alike.near.step_tag tag stepped
  · obtain ⟨os, root⟩ := b
    obtain ⟨ps, root'⟩ := c
    obtain ⟨stack, roots⟩ := alike
    cases x with
    | start t => exact absurd rfl tag
    | empty t => exact absurd rfl tag
    | finish => exact absurd rfl tag
    | text s =>
      cases s with
      | error f => cases stepped
      | ok s =>
        cases stack with
        | cons top below =>
          cases stepped
          exact ⟨_, rfl, .cons (top.pushText s) below, roots⟩
        | nil =>
          by_cases blank : isBlankText s = true
          · simp only [step_text_nil, blank, if_true, Except.ok.injEq] at stepped ⊢
            exact ⟨_, rfl, stepped ▸ ⟨.nil, roots⟩⟩
          · simp [step_text_nil, blank] at stepped
    | cdata s =>
      cases s with
      | error f => cases stepped
      | ok s =>
        cases stack with
        | nil => cases stepped
        | cons top below =>
          cases stepped
          exact ⟨_, rfl, .cons (top.pushText s) below, roots⟩
    | ignored =>
      cases stepped
      exact ⟨_, rfl, stack, roots⟩

theorem Alike.run {es : List Event} {b c b' : Builder} (alike : Alike b c)
    (ran : b.run es = .ok b') : ∃ c', c.run es = .ok c' ∧ Alike b' c' := by
  induction es generalizing b c with
  | nil =>
    cases ran
    exact ⟨c, rfl, alike⟩
  | cons x es ih =>
    obtain ⟨b₁, stepped, rest⟩ := exists_of_run_cons ran
    obtain ⟨c₁, stepped', alike'⟩ := alike.step stepped
    obtain ⟨c', ran', alike''⟩ := ih alike' rest
    exact ⟨c', (run_cons stepped' es).trans ran', alike''⟩

theorem Near.run {x : Event} {es : List Event} {b c b' : Builder} (near : Near b c)
    (tag : x.isTag = true) (ran : b.run (x :: es) = .ok b') :
    ∃ c', c.run (x :: es) = .ok c' ∧ Alike b' c' := by
  obtain ⟨b₁, stepped, rest⟩ := exists_of_run_cons ran
  obtain ⟨c₁, stepped', alike⟩ := near.step_tag tag stepped
  obtain ⟨c', ran', alike'⟩ := alike.run rest
  exact ⟨c', (run_cons stepped' es).trans ran', alike'⟩

theorem Alike.finish {b c : Builder} (alike : Alike b c) {e : Element}
    (finished : b.finish = .ok e) : ∃ f, c.finish = .ok f ∧ Element.Alike Eq e f := by
  obtain ⟨os, root⟩ := b
  obtain ⟨ps, root'⟩ := c
  obtain ⟨stack, roots⟩ := alike
  cases stack with
  | cons _ _ => cases finished
  | nil =>
    cases roots with
    | none => cases finished
    | some alike =>
      cases finished
      exact ⟨_, rfl, alike⟩

theorem step_text_append (b : Builder) (s t : String) :
    b.step (.text (.ok (s ++ t))) =
      b.step (.text (.ok s)) >>= fun b => b.step (.text (.ok t)) := by
  obtain ⟨_ | ⟨o, os⟩, root⟩ := b
  · have both : isBlankText (s ++ t) = (isBlankText s && isBlankText t) := by
      simp [isBlankText]
    simp only [step_text_nil, both]
    cases isBlankText s <;> rfl
  · rw [step_text_cons, step_text_cons, OpenElement.pushText_append]
    rfl

theorem exists_step_blank (b : Builder) {s : String} (blank : isBlankText s = true) :
    ∃ b', b.step (.text (.ok s)) = .ok b' ∧ Near b b' ∧ (b.Fresh → Alike b b') := by
  have same := Alike.refl b
  obtain ⟨_ | ⟨o, os⟩, root⟩ := b
  · refine ⟨⟨[], root⟩, ?_, same.near, fun _ => same⟩
    rw [step_text_nil, if_pos blank]
  · obtain ⟨_ | ⟨top, below⟩, roots⟩ := same
    refine ⟨_, step_text_cons o os root s, ⟨.cons (o.near_pushText_blank blank) below, roots⟩, ?_⟩
    intro fresh
    exact ⟨.cons ((fresh o rfl).alike_pushText_blank blank) below, roots⟩

theorem fresh_attach (b : Builder) (e : Element) : (b.attach e).Fresh := by
  obtain ⟨_ | ⟨o, os⟩, root⟩ := b
  · rintro o ⟨⟩
  · rintro _ ⟨⟩
    exact .inl rfl

theorem fresh_of_step_tag {b b' : Builder} {x : Event} (tag : x.isTag = true)
    (stepped : b.step x = .ok b') : b'.Fresh := by
  obtain ⟨os, root⟩ := b
  cases x with
  | start t =>
    cases root with
    | some _ => cases stepped
    | none =>
      cases t with
      | error f => cases stepped
      | ok t =>
        cases stepped
        rintro _ ⟨⟩
        exact .inr rfl
  | empty t =>
    cases root with
    | some _ => cases stepped
    | none =>
      cases t with
      | error f => cases stepped
      | ok t =>
        cases stepped
        exact fresh_attach _ _
  | finish =>
    cases os with
    | nil => cases stepped
    | cons o os =>
      cases stepped
      exact fresh_attach _ _
  | text s => cases tag
  | cdata s => cases tag
  | ignored => cases tag

end Builder

end XmlDelta.Document
