import Mathlib.Data.List.Induction
import XmlDelta.Proofs.Document.Grammar
import XmlDelta.Proofs.Except

set_option autoImplicit false

namespace XmlDelta.Document

open XmlDelta.Markup

namespace OpenElement

def absorb (o : OpenElement) : Piece → OpenElement
  | .text s | .cdata s => o.pushText s
  | .ignored => o
  | .empty t => o.pushChild { tag := t.tag, attributes := t.attributes }
  | .paired t inner => o.pushChild ⟨t.tag, t.attributes, Piece.leading inner, Piece.elements inner⟩

def ofPieces (t : StartTag) (inner : List Piece) : OpenElement where
  element := ⟨t.tag, t.attributes, Piece.leading inner, (Piece.elements inner).reverse⟩
  seenChild := inner.any Piece.isNode

theorem ofPieces_closed (t : StartTag) (inner : List Piece) :
    (ofPieces t inner).closed =
      ⟨t.tag, t.attributes, Piece.leading inner, Piece.elements inner⟩ := by
  simp [ofPieces, closed]

theorem ofPieces_append_data (t : StartTag) (inner : List Piece) {p : Piece} {s : String}
    (data : p.data? = some s) (noElement : p.element? = none) (noNode : p.isNode = false) :
    ofPieces t (inner ++ [p]) = (ofPieces t inner).pushText s := by
  by_cases seen : inner.any Piece.isNode = true
  · simp [ofPieces, pushText, Piece.leading_append_of_data inner data, Piece.elements_append,
      Piece.elements, noElement, seen]
  · have seen : inner.any Piece.isNode = false := by simpa using seen
    simp [ofPieces, pushText, Piece.leading_append_of_data inner data, Piece.elements_append,
      Piece.elements, noElement, noNode, seen]

theorem ofPieces_append_node (t : StartTag) (inner : List Piece) {p : Piece} {e : Element}
    (denoted : p.element? = some e) (node : p.isNode = true) (noData : p.data? = none) :
    ofPieces t (inner ++ [p]) = (ofPieces t inner).pushChild e := by
  simp [ofPieces, pushChild, Piece.leading_append_of_no_data inner noData, Piece.elements_append,
    Piece.elements, denoted, node]

theorem ofPieces_append_ignored (t : StartTag) (inner : List Piece) :
    ofPieces t (inner ++ [.ignored]) = ofPieces t inner := by
  have text := Piece.leading_append_of_no_data inner (p := .ignored) rfl
  simp [ofPieces, text, Piece.elements_append, Piece.elements, Piece.element?, Piece.isNode]

theorem ofPieces_append (t : StartTag) (inner : List Piece) (p : Piece) :
    ofPieces t (inner ++ [p]) = (ofPieces t inner).absorb p := by
  cases p with
  | text s => exact ofPieces_append_data t inner rfl rfl rfl
  | cdata s => exact ofPieces_append_data t inner rfl rfl rfl
  | ignored => exact ofPieces_append_ignored t inner
  | empty u => exact ofPieces_append_node t inner rfl rfl rfl
  | paired u pieces => exact ofPieces_append_node t inner rfl rfl rfl

theorem foldl_absorb (t : StartTag) (inner : List Piece) :
    inner.foldl absorb (start t) = ofPieces t inner := by
  induction inner using List.reverseRecOn with
  | nil => rfl
  | append_singleton inner p ih => rw [List.foldl_append, ih, ofPieces_append]; rfl

end OpenElement

namespace Builder

theorem run_cons {b b' : Builder} {x : Event} (stepped : b.step x = .ok b') (es : List Event) :
    b.run (x :: es) = b'.run es := by
  rw [run, stepped]
  rfl

theorem exists_of_run_cons {b b' : Builder} {x : Event} {es : List Event}
    (ran : b.run (x :: es) = .ok b') : ∃ b₁, b.step x = .ok b₁ ∧ b₁.run es = .ok b' :=
  bind_eq_ok_iff.mp ran

theorem run_append_of_ok {b b' : Builder} {xs : List Event} (ran : b.run xs = .ok b')
    (ys : List Event) : b.run (xs ++ ys) = b'.run ys := by
  rw [run_append, ran]
  rfl

theorem exists_of_run_append {b b' : Builder} {xs ys : List Event}
    (ran : b.run (xs ++ ys) = .ok b') : ∃ b₁, b.run xs = .ok b₁ ∧ b₁.run ys = .ok b' := by
  rw [run_append] at ran
  exact bind_eq_ok_iff.mp ran

theorem step_outer {x : Event} (outer : Outer x) (root : Option Element) :
    step ⟨[], root⟩ x = .ok ⟨[], root⟩ := by
  cases outer with
  | ignored => rfl
  | blank blank => simp [step, blank, bind, Except.bind]

theorem run_outer {es : List Event} (outer : ∀ x ∈ es, Outer x) (root : Option Element) :
    run ⟨[], root⟩ es = .ok ⟨[], root⟩ := by
  induction es with
  | nil => rfl
  | cons x es ih =>
    rw [run_cons (step_outer (outer x (by simp)) root)]
    exact ih fun y inside => outer y (by simp [inside])

theorem step_outside {x : Event} {b : Builder} {root : Option Element}
    (stepped : step ⟨[], root⟩ x = .ok b) :
    (Outer x ∧ b = ⟨[], root⟩) ∨ root = none ∧
      ((∃ t, x = .start (.ok t) ∧ b = ⟨[.start t], none⟩) ∨
        ∃ t, x = .empty (.ok t) ∧ b = ⟨[], some { tag := t.tag, attributes := t.attributes }⟩) := by
  cases x with
  | start t =>
    rcases root with _ | e
    · cases t with
      | error f => cases stepped
      | ok t =>
        cases stepped
        exact .inr ⟨rfl, .inl ⟨t, rfl, rfl⟩⟩
    · cases stepped
  | empty t =>
    rcases root with _ | e
    · cases t with
      | error f => cases stepped
      | ok t =>
        cases stepped
        exact .inr ⟨rfl, .inr ⟨t, rfl, rfl⟩⟩
    · cases stepped
  | finish => cases stepped
  | text s =>
    cases s with
    | error f => cases stepped
    | ok s =>
      by_cases blank : Text.isBlankText s = true
      · simp only [step, bind, Except.bind, blank, if_true, Except.ok.injEq] at stepped
        exact .inl ⟨.blank blank, stepped.symm⟩
      · simp [step, bind, Except.bind, blank] at stepped
  | cdata s =>
    cases s with
    | error f => cases stepped
    | ok s => cases stepped
  | ignored =>
    cases stepped
    exact .inl ⟨.ignored, rfl⟩

theorem step_inside {x : Event} {b : Builder} {o : OpenElement} {os : List OpenElement}
    (stepped : step ⟨o :: os, none⟩ x = .ok b) :
    (∃ t, x = .start (.ok t) ∧ b = ⟨.start t :: { o with seenChild := true } :: os, none⟩) ∨
      (x = .finish ∧ b = attach ⟨os, none⟩ o.closed) ∨
      ∃ p : Piece, p.events = [x] ∧ b = ⟨o.absorb p :: os, none⟩ := by
  cases x with
  | start t =>
    cases t with
    | error f => cases stepped
    | ok t =>
      cases stepped
      exact .inl ⟨t, rfl, rfl⟩
  | empty t =>
    cases t with
    | error f => cases stepped
    | ok t =>
      cases stepped
      exact .inr (.inr ⟨.empty t, rfl, rfl⟩)
  | finish =>
    cases stepped
    exact .inr (.inl ⟨rfl, rfl⟩)
  | text s =>
    cases s with
    | error f => cases stepped
    | ok s =>
      cases stepped
      exact .inr (.inr ⟨.text s, rfl, rfl⟩)
  | cdata s =>
    cases s with
    | error f => cases stepped
    | ok s =>
      cases stepped
      exact .inr (.inr ⟨.cdata s, rfl, rfl⟩)
  | ignored =>
    cases stepped
    exact .inr (.inr ⟨.ignored, rfl, rfl⟩)

theorem run_singleton (b : Builder) (x : Event) : run b [x] = b.step x := by
  rw [run]
  cases b.step x <;> rfl

mutual

theorem run_events (p : Piece) (o : OpenElement) (os : List OpenElement) :
    run ⟨o :: os, none⟩ p.events = .ok ⟨o.absorb p :: os, none⟩ := by
  cases p with
  | text s => rfl
  | cdata s => rfl
  | ignored => rfl
  | empty t => rfl
  | paired t inner =>
    have opened : step ⟨o :: os, none⟩ (.start (.ok t)) =
        .ok ⟨.start t :: { o with seenChild := true } :: os, none⟩ := rfl
    rw [Piece.events, run_cons opened, run_append_of_ok (run_eventsOfAll inner _ _),
      OpenElement.foldl_absorb, run_singleton]
    simp only [step, attach, OpenElement.ofPieces_closed]
    rfl

theorem run_eventsOfAll (ps : List Piece) (o : OpenElement) (os : List OpenElement) :
    run ⟨o :: os, none⟩ (Piece.eventsOfAll ps) = .ok ⟨ps.foldl OpenElement.absorb o :: os, none⟩ := by
  cases ps with
  | nil => rfl
  | cons p ps =>
    rw [Piece.eventsOfAll, run_append_of_ok (run_events p o os)]
    exact run_eventsOfAll ps _ os

end

end Builder

structure Frame where
  tag : StartTag
  inner : List Piece := []

namespace Frame

def opened (f : Frame) : OpenElement :=
  .ofPieces f.tag f.inner

def around (f : Frame) : OpenElement :=
  -- An element around another one has seen a child, though none of its children is complete.
  { f.opened with seenChild := true }

def events (f : Frame) : List Event :=
  .start (.ok f.tag) :: Piece.eventsOfAll f.inner

def push (f : Frame) (p : Piece) : Frame :=
  { f with inner := f.inner ++ [p] }

theorem push_opened (f : Frame) (p : Piece) : (f.push p).opened = f.opened.absorb p :=
  OpenElement.ofPieces_append f.tag f.inner p

theorem push_events (f : Frame) (p : Piece) : (f.push p).events = f.events ++ p.events := by
  simp [push, events, Piece.eventsOfAll_append, Piece.eventsOfAll]

theorem around_pushChild (f g : Frame) :
    f.around.pushChild g.opened.closed = (f.push (.paired g.tag g.inner)).opened := by
  rw [push_opened, opened, OpenElement.ofPieces_closed]
  rfl

end Frame

def stackOf : List Frame → List OpenElement
  | [] => []
  | f :: fs => f.opened :: fs.map Frame.around

def openEvents (fs : List Frame) : List Event :=
  fs.reverse.flatMap Frame.events

theorem openEvents_cons (f : Frame) (fs : List Frame) :
    openEvents (f :: fs) = openEvents fs ++ f.events := by
  simp [openEvents]

/-- What the builder holds after a sequence of events that it did not refuse. -/
inductive Reads : List Event → Builder → Prop where
  | before {es : List Event} (outer : ∀ x ∈ es, Outer x) : Reads es {}
  | inside {es : List Event} (outer : ∀ x ∈ es, Outer x) (f : Frame) (fs : List Frame) :
    Reads (es ++ openEvents (f :: fs)) ⟨stackOf (f :: fs), none⟩
  | after {es : List Event} {e : Element} (denoted : Denotes es e) : Reads es ⟨[], some e⟩

theorem Denotes.append_outer {es : List Event} {e : Element} (denoted : Denotes es e) {x : Event}
    (outer : Outer x) : Denotes (es ++ [x]) e := by
  cases denoted with
  | intro before denoted after =>
    rw [List.append_assoc]
    apply Denotes.intro before denoted
    intro y inside
    rcases List.mem_append.mp inside with inside | inside
    · exact after y inside
    · exact List.mem_singleton.mp inside ▸ outer

theorem Denotes.of_node {es : List Event} (outer : ∀ x ∈ es, Outer x) (node : Piece)
    {e : Element} (denoted : node.element? = some e) : Denotes (es ++ node.events) e := by
  have := @Denotes.intro es [] node e outer denoted (by simp)
  rwa [List.append_nil] at this

theorem Reads.step {es : List Event} {b b' : Builder} {x : Event} (reads : Reads es b)
    (stepped : b.step x = .ok b') : Reads (es ++ [x]) b' := by
  cases reads with
  | before outer =>
    rcases Builder.step_outside stepped with ⟨dropped, rfl⟩ | ⟨-, ⟨t, rfl, rfl⟩ | ⟨t, rfl, rfl⟩⟩
    · apply Reads.before
      intro y inside
      rcases List.mem_append.mp inside with inside | inside
      · exact outer y inside
      · exact List.mem_singleton.mp inside ▸ dropped
    · exact .inside outer ⟨t, []⟩ []
    · exact .after (.of_node outer (.empty t) rfl)
  | @inside es outer f fs =>
    -- Whatever comes belongs to the innermost element.
    rw [List.append_assoc]
    rcases Builder.step_inside stepped with ⟨t, rfl, rfl⟩ | ⟨rfl, rfl⟩ | ⟨p, same, rfl⟩
    · have := Reads.inside outer ⟨t, []⟩ (f :: fs)
      rwa [openEvents_cons] at this
    · rcases fs with _ | ⟨g, gs⟩
      · have := Denotes.of_node outer (.paired f.tag f.inner) rfl
        rw [← OpenElement.ofPieces_closed] at this
        exact .after (by simpa [openEvents, Frame.events, Frame.opened, Piece.events] using this)
      · have := Reads.inside outer (g.push (.paired f.tag f.inner)) gs
        rw [openEvents_cons, Frame.push_events] at this
        rw [openEvents_cons, openEvents_cons]
        simpa [stackOf, Builder.attach, Frame.around_pushChild, Frame.events, Piece.events] using this
    · have := Reads.inside outer (f.push p) fs
      rw [openEvents_cons, Frame.push_events, same] at this
      rw [openEvents_cons]
      simpa [stackOf, Frame.push_opened] using this
  | after denoted =>
    rcases Builder.step_outside stepped with ⟨dropped, rfl⟩ | ⟨absent, -⟩
    · exact .after (denoted.append_outer dropped)
    · cases absent

theorem run_reads {es : List Event} {b : Builder} (ran : Builder.run {} es = .ok b) :
    Reads es b := by
  -- From the end: a run is a shorter run and one step after it.
  induction es using List.reverseRecOn generalizing b with
  | nil =>
    cases ran
    exact .before (by simp)
  | append_singleton es x ih =>
    rw [Builder.run_append] at ran
    cases first : Builder.run {} es with
    | error f => simp [first, bind, Except.bind] at ran
    | ok b₀ =>
      rw [first] at ran
      exact (ih first).step ((Builder.run_singleton b₀ x).symm.trans ran)

theorem build_of_run {es : List Event} {b : Builder} (ran : Builder.run {} es = .ok b) :
    build es = b.finish := by
  rw [build, ran]
  rfl

theorem run_root {node : Piece} {e : Element} (denoted : node.element? = some e) :
    Builder.run {} node.events = .ok ⟨[], some e⟩ := by
  cases node with
  | text s => cases denoted
  | cdata s => cases denoted
  | ignored => cases denoted
  | empty t =>
    cases denoted
    rfl
  | paired t inner =>
    cases denoted
    have opened : Builder.step {} (.start (.ok t)) = .ok ⟨[.start t], none⟩ := rfl
    rw [Piece.events, Builder.run_cons opened,
      Builder.run_append_of_ok (Builder.run_eventsOfAll inner _ _), OpenElement.foldl_absorb,
      ← OpenElement.ofPieces_closed]
    rfl

theorem build_of_denotes {es : List Event} {e : Element} (denoted : Denotes es e) :
    build es = .ok e := by
  cases denoted with
  | @intro before after node _ outerBefore denoted outerAfter =>
    have ran : Builder.run {} (before ++ node.events ++ after) = .ok ⟨[], some e⟩ := by
      rw [List.append_assoc, Builder.run_append_of_ok (Builder.run_outer outerBefore none),
        Builder.run_append_of_ok (run_root denoted), Builder.run_outer outerAfter]
    exact build_of_run ran

theorem denotes_of_build {es : List Event} {e : Element} (built : build es = .ok e) :
    Denotes es e := by
  cases ran : Builder.run {} es with
  | error f => simp [build, ran, bind, Except.bind] at built
  | ok b =>
    rw [build_of_run ran] at built
    cases run_reads ran with
    | before outer => cases built
    | inside outer f fs => cases built
    | after denoted =>
      cases built
      exact denoted

def tagStarted? : Event → Option String
  | .start (.ok t) | .empty (.ok t) => some t.tag
  | _ => none

mutual

theorem tags_of_piece (p : Piece) :
    (p.element?.toList.flatMap Element.nodes).map Element.tag =
      p.events.filterMap tagStarted? := by
  cases p with
  | text s => rfl
  | cdata s => rfl
  | ignored => rfl
  | empty t => rfl
  | paired t inner =>
    have below := tags_of_pieces inner
    simp only [Piece.element?, Piece.events, Option.toList_some, List.flatMap_singleton,
      Element.nodes_eq, List.map_cons, below]
    simp [tagStarted?]

theorem tags_of_pieces (ps : List Piece) :
    ((Piece.elements ps).flatMap Element.nodes).map Element.tag =
      (Piece.eventsOfAll ps).filterMap tagStarted? := by
  cases ps with
  | nil => rfl
  | cons p ps =>
    simp only [Piece.elements, Piece.eventsOfAll, List.flatMap_append, List.map_append,
      List.filterMap_append]
    rw [tags_of_piece p, tags_of_pieces ps]

end

theorem tags_of_outer {es : List Event} (outer : ∀ x ∈ es, Outer x) :
    es.filterMap tagStarted? = [] := by
  apply List.filterMap_eq_nil_iff.mpr
  intro x inside
  cases outer x inside <;> rfl

theorem tags_of_denotes {es : List Event} {e : Element} (denoted : Denotes es e) :
    e.nodes.map Element.tag = es.filterMap tagStarted? := by
  cases denoted with
  | @intro _ _ node _ outerBefore denoted outerAfter =>
    have tags := tags_of_piece node
    rw [denoted] at tags
    simpa [List.filterMap_append, tags_of_outer outerBefore, tags_of_outer outerAfter] using tags

theorem parseFrom_eq_ok_iff [Text.EastAsian] (r : Reader) (e : Element) :
    parseFrom r = .ok e ↔ r.events.2 = none ∧ build r.events.1 = .ok e := by
  unfold parseFrom
  generalize r.events = delivered
  obtain ⟨es, _ | fault⟩ := delivered
  · simp
  · -- A fault of the reader is the answer, unless the builder has refused an earlier event.
    cases ran : Builder.run {} es <;> simp [ran, bind, Except.bind]

theorem build_ok_iff_denotes [Text.EastAsian] :
    (∀ es e, build es = .ok e ↔ Denotes es e) ∧
      (∀ es, (∀ e, ¬ Denotes es e) → ∃ fault, build es = .error fault) ∧
      (∀ es e, Denotes es e → e.nodes.map Element.tag = es.filterMap tagStarted?) ∧
      ∀ (r : Reader) e, parseFrom r = .ok e ↔ r.events.2 = none ∧ Denotes r.events.1 e := by
  have accepted (es : List Event) (e : Element) : build es = .ok e ↔ Denotes es e :=
    ⟨denotes_of_build, build_of_denotes⟩
  refine ⟨accepted, ?_, fun _ _ => tags_of_denotes, fun r e => ?_⟩
  · intro es none
    cases built : build es with
    | error fault => exact ⟨fault, rfl⟩
    | ok e => exact absurd ((accepted es e).mp built) (none e)
  · rw [parseFrom_eq_ok_iff, accepted]

theorem build_ok_iff_denotes_tailed :
    let r : StartTag := ⟨"r", {}⟩
    let a : StartTag := ⟨"a", {}⟩
    let es : List Event := [.ignored, .start (.ok r), .text (.ok "hi"), .cdata (.ok "!"),
      .empty (.ok a), .text (.ok "tail"), .finish, .text (.ok "\n")]
    let e : Element := { tag := "r", text := some "hi!", children := [{ tag := "a" }] }
    Denotes es e ∧ build es = .ok e ∧ e.nodes.map Element.tag = es.filterMap tagStarted? ∧
      (∀ f, ¬ Denotes [.empty (.ok r), .empty (.ok a)] f) ∧
      ∃ fault, build [.empty (.ok r), .empty (.ok a)] = .error fault := by
  intro r a es e
  have denoted : Denotes es e :=
    @Denotes.intro [.ignored] [.text (.ok "\n")]
      (.paired r [.text "hi", .cdata "!", .empty a, .text "tail"]) e
      (by simp [Outer.ignored]) rfl (by simpa using Outer.blank (by decide))
  have refused : ∀ f, ¬ Denotes [.empty (.ok r), .empty (.ok a)] f := by
    intro f denoted
    have built := (build_ok_iff_denotes.1 _ f).mpr denoted
    cases built
  exact ⟨denoted, (build_ok_iff_denotes.1 es e).mpr denoted,
    build_ok_iff_denotes.2.2.1 es e denoted, refused, build_ok_iff_denotes.2.1 _ refused⟩

end XmlDelta.Document
