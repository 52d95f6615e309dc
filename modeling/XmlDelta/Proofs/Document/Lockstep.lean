import XmlDelta.Proofs.Document.Build
import XmlDelta.Proofs.Markup.OpenTags
import XmlDelta.Proofs.Markup.Settled

set_option autoImplicit false

namespace XmlDelta.Document

open XmlDelta.Markup

namespace OpenElement

def startTag (o : OpenElement) : StartTag :=
  ⟨o.element.tag, o.element.attributes⟩

@[simp]
theorem startTag_pushChild (o : OpenElement) (c : Element) : (o.pushChild c).startTag = o.startTag :=
  rfl

@[simp]
theorem startTag_pushText (o : OpenElement) (s : String) : (o.pushText s).startTag = o.startTag := by
  unfold pushText
  split <;> rfl

theorem startTag_absorb (o : OpenElement) (p : Piece) : (o.absorb p).startTag = o.startTag := by
  cases p <;> simp [absorb]

end OpenElement

namespace Builder

def openTags (b : Builder) : List (Payload StartTag) :=
  b.stack.map fun o => .ok o.startTag

/-- What holds of a builder between two events: an element around another one has seen a child, and
a root is there only when nothing is open. -/
structure Sound (b : Builder) : Prop where
  seen : ∀ o ∈ b.stack.tail, o.seenChild = true
  root : b.root.isSome = true → b.stack = []

theorem openAfter_of_piece {p : Piece} {x : Event} (single : p.events = [x])
    (ts : List (Payload StartTag)) : x.openAfter ts = ts := by
  cases p with
  | paired t inner => simp [Piece.events] at single
  | _ =>
    cases single
    rfl

theorem Sound.step {b b' : Builder} {x : Event} (sound : b.Sound) (accepted : b.step x = .ok b') :
    b'.Sound ∧ b'.openTags = x.openAfter b.openTags := by
  obtain ⟨_ | ⟨o, os⟩, root⟩ := b
  · rcases step_outside accepted with ⟨outer, rfl⟩ | ⟨rfl, ⟨t, rfl, rfl⟩ | ⟨t, rfl, rfl⟩⟩
    · cases outer <;> exact ⟨sound, rfl⟩
    · exact ⟨⟨by simp, by simp⟩, rfl⟩
    · exact ⟨⟨by simp, by simp⟩, rfl⟩
  · -- Inside an element there is no root yet.
    obtain rfl : root = none := by
      cases root with
      | none => rfl
      | some e => cases sound.root rfl
    rcases step_inside accepted with ⟨t, rfl, rfl⟩ | ⟨rfl, rfl⟩ | ⟨p, single, rfl⟩
    · refine ⟨⟨?_, by simp⟩, rfl⟩
      intro q inside
      rcases List.mem_cons.mp inside with rfl | inside
      · rfl
      · exact sound.seen q inside
    · cases os with
      | nil => exact ⟨⟨by simp [attach], fun _ => rfl⟩, rfl⟩
      | cons q qs =>
        refine ⟨⟨?_, by simp [attach]⟩, rfl⟩
        intro s inside
        exact sound.seen s (List.mem_cons_of_mem q inside)
    · refine ⟨⟨sound.seen, by simp⟩, ?_⟩
      rw [openAfter_of_piece single]
      simp [openTags, OpenElement.startTag_absorb]

theorem step_refused {b : Builder} {x : Event} {f : DocumentFault} (refused : b.step x = .error f) :
    x.Carries f ∨ f = .secondRoot ∨ f = .textOutsideRoot ∨ f = .cdataOutsideRoot ∨
      f = .unexpectedEnd ∧ x = .finish ∧ b.stack = [] := by
  obtain ⟨stack, root⟩ := b
  cases x with
  | start t =>
    cases root with
    | some e =>
      cases refused
      exact .inr (.inl rfl)
    | none =>
      cases t with
      | error f =>
        cases refused
        exact .inl .start
      | ok t => cases refused
  | empty t =>
    cases root with
    | some e =>
      cases refused
      exact .inr (.inl rfl)
    | none =>
      cases t with
      | error f =>
        cases refused
        exact .inl .empty
      | ok t => cases refused
  | finish =>
    cases stack with
    | nil =>
      cases refused
      exact .inr (.inr (.inr (.inr ⟨rfl, rfl, rfl⟩)))
    | cons o os => cases refused
  | text s =>
    cases s with
    | error f =>
      cases refused
      exact .inl .text
    | ok s =>
      cases stack with
      | cons o os => cases refused
      | nil =>
        by_cases blank : Text.isBlankText s = true
        · simp [step, bind, Except.bind, blank] at refused
        · simp only [step, bind, Except.bind, blank, Bool.false_eq_true, if_false,
            Except.error.injEq] at refused
          exact .inr (.inr (.inl refused.symm))
  | cdata s =>
    cases s with
    | error f =>
      cases refused
      exact .inl .cdata
    | ok s =>
      cases stack with
      | nil =>
        cases refused
        exact .inr (.inr (.inr (.inl rfl)))
      | cons o os => cases refused
  | ignored => cases refused

theorem finish_eq_unclosed_iff {b : Builder} {tag : String} :
    b.finish = .error (.unclosed tag) ↔ ∃ o os, b.stack = o :: os ∧ o.element.tag = tag := by
  obtain ⟨_ | ⟨o, os⟩, _ | e⟩ := b <;> simp [finish]

theorem finish_ne_unexpectedEnd (b : Builder) : b.finish ≠ .error .unexpectedEnd := by
  obtain ⟨_ | ⟨o, os⟩, _ | e⟩ := b <;> simp [finish]

end Builder

/-- Faults that a parse may end with before the end of its input. -/
inductive Early : DocumentFault → Prop where
  | markup (m : MarkupFault) (offset : Nat) : Early (.markup m offset)
  | payload {f : DocumentFault} (said : f.OfPayload) : Early f
  | secondRoot : Early .secondRoot
  | textOutsideRoot : Early .textOutsideRoot
  | cdataOutsideRoot : Early .cdataOutsideRoot

/-- Where a parse stands between two events. The open tags are a record that neither side reads. -/
structure Progress where
  reader : Reader
  builder : Builder := {}
  opened : List OpenTag := []

section Together

variable [Text.EastAsian]

namespace Progress

inductive Turn (p : Progress) : Progress → Prop where
  | intro {x : Scanned} {e : Event} {r : Reader} {b : Builder}
      (scanned : scan p.reader.rest = .ok (some x)) (delivered : p.reader.read x = .ok (e, r))
      (accepted : p.builder.step e = .ok b) :
      Turn p ⟨r, b, x.item.openAfter p.reader.encoding p.opened⟩

inductive Reached (r : Reader) : Progress → Prop where
  | start : Reached r { reader := r }
  | turn {p q : Progress} (before : Reached r p) (turn : Turn p q) : Reached r q

/-- Builder and reader have the same elements open, the innermost first. -/
structure InStep (p : Progress) : Prop where
  -- The reader's own stack holds the names of the open tags as they stand in the input.
  names : p.opened.map OpenTag.name = p.reader.opened
  -- The builder's stack holds what the start events of these tags said, attributes included.
  tags : p.builder.openTags = p.opened.map OpenTag.read
  sound : p.builder.Sound

variable {p q : Progress}

theorem InStep.turn (inStep : InStep p) (turn : Turn p q) : InStep q := by
  cases turn with
  | @intro x e r b scanned delivered accepted =>
    obtain ⟨sound, tags⟩ := inStep.sound.step accepted
    refine ⟨Reader.map_name_openAfter inStep.names delivered, ?_, sound⟩
    rw [tags, inStep.tags, Reader.event_of_read delivered]
    exact (Item.map_read_openAfter p.reader.encoding p.opened x.item).symm

theorem inStep_start {r : Reader} (fresh : r.opened = []) : InStep { reader := r } where
  names := fresh.symm
  tags := rfl
  sound := ⟨by simp, by simp⟩

theorem Reached.inStep {r : Reader} (fresh : r.opened = []) (reached : Reached r p) : InStep p := by
  induction reached with
  | start => exact inStep_start fresh
  | turn _ turn ih => exact ih.turn turn

theorem InStep.decodedNames (inStep : InStep p) :
    p.builder.stack.map (fun o => .ok o.element.tag) = p.opened.map OpenTag.decodedName := by
  have tags := inStep.tags
  rw [Builder.openTags] at tags
  generalize p.builder.stack = os, p.opened = ts at tags
  induction os generalizing ts with
  | nil =>
    rw [List.map_eq_nil_iff.mp tags.symm]
    rfl
  | cons o os ih =>
    cases ts with
    | nil => cases tags
    | cons t ts =>
      simp only [List.map_cons, List.cons.injEq] at tags ⊢
      exact ⟨(decodeText_of_startTag tags.1.symm).symm, ih ts tags.2⟩

theorem InStep.early_of_refused (inStep : InStep p) {e : Event} {r : Reader} {f : DocumentFault}
    (delivered : p.reader.next = .ok (some (e, r))) (refused : p.builder.step e = .error f) :
    Early f := by
  obtain ⟨x, -, read⟩ := Reader.exists_of_next delivered
  rcases Builder.step_refused refused with carries | rfl | rfl | rfl | ⟨-, rfl, empty⟩
  · rw [Reader.event_of_read read] at carries
    exact .payload (Item.ofPayload_of_carries carries)
  · exact .secondRoot
  · exact .textOutsideRoot
  · exact .cdataOutsideRoot
  · -- The reader has an element open that ends here, so the builder has one too.
    obtain ⟨o, os, opened⟩ := Reader.exists_opened_of_finish read
    have tags := inStep.tags
    have names := inStep.names
    rw [Builder.openTags, empty, List.map_nil] at tags
    rw [List.map_eq_nil_iff.mp tags.symm, opened] at names
    cases names

section Answers

def answer (p : Progress) : Except DocumentFault Element :=
  match p.reader.events with
  | (es, none) => p.builder.run es >>= Builder.finish
  | (es, some f) => p.builder.run es >>= fun _ => .error f

theorem answer_start (r : Reader) : answer { reader := r } = parseFrom r :=
  rfl

theorem eventsFrom_append (seen front : List Event) (r : Reader) :
    Reader.eventsFrom (seen ++ front) r =
      (front.reverse ++ (Reader.eventsFrom seen r).1, (Reader.eventsFrom seen r).2) := by
  fun_induction Reader.eventsFrom seen r with
  | case1 seen r f fault => rw [Reader.eventsFrom_of_fault fault, List.reverse_append]
  | case2 seen r last => rw [eventsFrom_end last, List.reverse_append]
  | case3 seen r e r' first ih => exact (eventsFrom_next first (seen ++ front)).trans ih

theorem events_of_next {r r' : Reader} {e : Event} (first : r.next = .ok (some (e, r'))) :
    r.events = (e :: r'.events.1, r'.events.2) := by
  rw [Reader.events, eventsFrom_next first]
  exact eventsFrom_append [] [e] r'

theorem answer_of_next {e : Event} {r : Reader} (next : p.reader.next = .ok (some (e, r))) :
    p.answer = p.builder.step e >>= fun b => answer ⟨r, b, []⟩ := by
  simp only [answer, events_of_next next]
  generalize r.events = delivered
  obtain ⟨es, _ | f⟩ := delivered
  · exact bind_assoc (p.builder.step e) (fun b => b.run es) _
  · exact bind_assoc (p.builder.step e) (fun b => b.run es) _

theorem answer_of_fault {f : DocumentFault} (fault : p.reader.next = .error f) :
    p.answer = .error f := by
  rw [answer, Reader.events, Reader.eventsFrom_of_fault fault]
  rfl

theorem answer_of_end (last : p.reader.next = .ok none) : p.answer = p.builder.finish := by
  rw [answer, Reader.events, eventsFrom_end last]
  rfl

theorem Turn.next (turn : Turn p q) :
    ∃ e, p.reader.next = .ok (some (e, q.reader)) ∧ p.builder.step e = .ok q.builder := by
  cases turn with
  | intro scanned delivered accepted => exact ⟨_, next_of_scan scanned delivered, accepted⟩

theorem Turn.answer_eq (turn : Turn p q) : p.answer = q.answer := by
  obtain ⟨e, next, accepted⟩ := turn.next
  rw [answer_of_next next, accepted]
  rfl

theorem Reached.answer_eq {r : Reader} (reached : Reached r p) : p.answer = parseFrom r := by
  induction reached with
  | start => exact answer_start r
  | turn _ turn ih => exact turn.answer_eq.symm.trans ih

/-- A parse that goes no further, and its answer. -/
inductive Halted (p : Progress) : Except DocumentFault Element → Prop where
  | ended (last : p.reader.next = .ok none) : Halted p p.builder.finish
  | broken {f : DocumentFault} (fault : p.reader.next = .error f) : Halted p (.error f)
  | refused {e : Event} {r : Reader} {f : DocumentFault}
      (delivered : p.reader.next = .ok (some (e, r))) (refused : p.builder.step e = .error f) :
      Halted p (.error f)

theorem InStep.early_or_ended (inStep : InStep p) {f : DocumentFault}
    (halted : Halted p (.error f)) :
    Early f ∨ p.reader.next = .ok none ∧ p.builder.finish = .error f := by
  generalize answer : (.error f : Except DocumentFault Element) = a at halted
  cases halted with
  | ended last => exact .inr ⟨last, rfl⟩
  | broken fault =>
    cases answer
    obtain ⟨m, offset, rfl⟩ := Reader.exists_markup_of_next fault
    exact .inl (.markup m offset)
  | refused delivered refused =>
    cases answer
    exact .inl (inStep.early_of_refused delivered refused)

theorem exists_turn {e : Event} {r : Reader} {b : Builder}
    (delivered : p.reader.next = .ok (some (e, r))) (accepted : p.builder.step e = .ok b) :
    ∃ ts, Turn p ⟨r, b, ts⟩ := by
  obtain ⟨x, scanned, read⟩ := Reader.exists_of_next delivered
  exact ⟨_, .intro scanned read accepted⟩

theorem Reached.exists_halted {r : Reader} (reached : Reached r p) :
    ∃ q, Reached r q ∧ Halted q p.answer := by
  induction shorter : p.reader.rest.length using Nat.strong_induction_on generalizing p with
  | _ n ih =>
    cases next : p.reader.next with
    | error f => exact ⟨p, reached, answer_of_fault next ▸ .broken next⟩
    | ok delivered =>
      rcases delivered with _ | ⟨e, r'⟩
      · exact ⟨p, reached, answer_of_end next ▸ .ended next⟩
      · cases accepted : p.builder.step e with
        | error f =>
          have answer : p.answer = .error f := by
            rw [answer_of_next next, accepted]
            rfl
          exact ⟨p, reached, answer ▸ .refused next accepted⟩
        | ok b =>
          obtain ⟨ts, turn⟩ := exists_turn next accepted
          rw [turn.answer_eq]
          exact ih _ (shorter ▸ Reader.next_length next) (reached.turn turn) rfl

theorem Reached.exists_of_delivers {r₀ r r' : Reader} {es : List Event} {b b' : Builder}
    {ts : List OpenTag} (reached : Reached r₀ ⟨r, b, ts⟩) (delivers : Delivers r es r')
    (ran : b.run es = .ok b') : ∃ ts', Reached r₀ ⟨r', b', ts'⟩ := by
  induction delivers generalizing b ts with
  | done r =>
    cases ran
    exact ⟨ts, reached⟩
  | next first _ ih =>
    obtain ⟨b₁, accepted, ran⟩ := Builder.exists_of_run_cons ran
    obtain ⟨ts₁, turn⟩ := exists_turn (p := ⟨_, b, ts⟩) first accepted
    exact ih (reached.turn turn) ran

end Answers

end Progress

inductive Source where
  | text (s : String)
  | bytes (b : List UInt8)

namespace Source

open Progress

def reader : Source → Reader
  | text s => .ofText s
  | bytes b => .ofBytes b

def parse : Source → Except DocumentFault Element
  | text s => parseText s
  | bytes b => parseBytes b

theorem parse_eq (d : Source) : d.parse = parseFrom d.reader := by
  cases d <;> rfl

omit [Text.EastAsian] in
theorem opened_reader (d : Source) : d.reader.opened = [] := by
  cases d with
  | text s => rfl
  | bytes b =>
    simp only [reader, Reader.ofBytes]
    repeat' split
    all_goals rfl

theorem exists_halted (d : Source) : ∃ p, Reached d.reader p ∧ Halted p d.parse := by
  rw [parse_eq, ← answer_start]
  exact Reached.start.exists_halted

theorem parse_ne_unexpectedEnd (d : Source) : d.parse ≠ .error .unexpectedEnd := by
  intro refused
  obtain ⟨p, reached, halted⟩ := d.exists_halted
  rw [refused] at halted
  rcases (reached.inStep d.opened_reader).early_or_ended halted with early | ⟨-, finished⟩
  · cases early with
    | payload said => cases said
  · exact p.builder.finish_ne_unexpectedEnd finished

theorem parse_eq_unclosed_iff (d : Source) (tag : String) :
    d.parse = .error (.unclosed tag) ↔ ∃ p t ts, Reached d.reader p ∧ p.reader.next = .ok none ∧
      p.opened = t :: ts ∧ t.decodedName = .ok tag := by
  constructor
  · intro unclosed
    obtain ⟨p, reached, halted⟩ := d.exists_halted
    have inStep := reached.inStep d.opened_reader
    rw [unclosed] at halted
    rcases inStep.early_or_ended halted with early | ⟨last, finished⟩
    · cases early with
      | payload said => cases said
    · obtain ⟨o, os, stack, rfl⟩ := Builder.finish_eq_unclosed_iff.mp finished
      have names := inStep.decodedNames
      rw [stack, List.map_cons] at names
      obtain ⟨t, ts, opened, name, -⟩ := List.map_eq_cons_iff.mp names.symm
      exact ⟨p, t, ts, reached, last, opened, name⟩
  · rintro ⟨p, t, ts, reached, last, opened, name⟩
    have names := (reached.inStep d.opened_reader).decodedNames
    rw [opened, List.map_cons, name] at names
    obtain ⟨o, os, stack, same, -⟩ := List.map_eq_cons_iff.mp names
    rw [parse_eq, ← reached.answer_eq, answer_of_end last]
    exact Builder.finish_eq_unclosed_iff.mpr ⟨o, os, stack, Except.ok.inj same⟩

/-- Builder and reader stay in step: after every accepted event the builder's stack holds the
elements that the reader has open, under their names as these were decoded when they were read. An
end tag always finds its element, and the element that is called unclosed is the innermost one. -/
theorem parse_inStep (d : Source) :
    (∀ es r b, Delivers d.reader es r → Builder.run {} es = .ok b →
        ∃ ts, Reached d.reader ⟨r, b, ts⟩) ∧
      (∀ p, Reached d.reader p → InStep p ∧
        p.builder.stack.map (fun o => .ok o.element.tag) = p.opened.map OpenTag.decodedName) ∧
      (∀ p e r, Reached d.reader p → p.reader.next = .ok (some (e, r)) →
        p.builder.step e ≠ .error .unexpectedEnd) ∧
      d.parse ≠ .error .unexpectedEnd ∧
      ∀ tag, d.parse = .error (.unclosed tag) ↔ ∃ p t ts, Reached d.reader p ∧
        p.reader.next = .ok none ∧ p.opened = t :: ts ∧ t.decodedName = .ok tag := by
  refine ⟨?_, ?_, ?_, d.parse_ne_unexpectedEnd, d.parse_eq_unclosed_iff⟩
  · intro es r b delivers ran
    exact Reached.start.exists_of_delivers delivers ran
  · intro p reached
    have inStep := reached.inStep d.opened_reader
    exact ⟨inStep, inStep.decodedNames⟩
  · intro p e r reached delivered refused
    cases (reached.inStep d.opened_reader).early_of_refused delivered refused with
    | payload said => cases said

end Source

end Together

namespace Source

open Progress

set_option maxRecDepth 1000 in
theorem parse_inStep_declared :
    let d : Source := .bytes (Text.Utf8.encode "<é><?xml encoding='cp1252'?><é>".toList)
    ∃ p, Reached d.reader p ∧ InStep p ∧
      p.reader.opened = [[0xC3, 0xA9], [0xC3, 0xA9]] ∧
      p.builder.stack.map (fun o => o.element.tag) = ["Ã©", "é"] ∧
      p.opened.map OpenTag.decodedName = [.ok "Ã©", .ok "é"] ∧
      d.parse = .error (.unclosed "Ã©") := by
  intro d
  let outer : Reader := ⟨d.reader.rest.drop 4, 4, [[0xC3, 0xA9]], .utf8, false⟩
  let declared : Reader := ⟨d.reader.rest.drop 29, 29, [[0xC3, 0xA9]], .codePage .windows1252, true⟩
  let inner : Reader := ⟨[], 33, [[0xC3, 0xA9], [0xC3, 0xA9]], .codePage .windows1252, true⟩
  have first : d.reader.next = .ok (some (.start (.ok ⟨"é", {}⟩), outer)) := by
    with_unfolding_all rfl
  have second : outer.next = .ok (some (.ignored, declared)) := by with_unfolding_all rfl
  have third : declared.next = .ok (some (.start (.ok ⟨"Ã©", {}⟩), inner)) := by
    with_unfolding_all rfl
  have ended : inner.next = .ok none := rfl
  have delivers : Delivers d.reader
      [.start (.ok ⟨"é", {}⟩), .ignored, .start (.ok ⟨"Ã©", {}⟩)] inner :=
    .next first (.next second (.next third (.done inner)))
  obtain ⟨accepted, reached_inStep, -, -, unclosed⟩ := d.parse_inStep
  obtain ⟨ts, reached⟩ := accepted _ inner _ delivers rfl
  obtain ⟨inStep, names⟩ := reached_inStep _ reached
  obtain ⟨t, us, opened, name, -⟩ := List.map_eq_cons_iff.mp names.symm
  exact ⟨_, reached, inStep, rfl, rfl, names.symm,
    (unclosed "Ã©").mpr ⟨_, t, us, reached, ended, opened, name⟩⟩

end Source

end XmlDelta.Document
