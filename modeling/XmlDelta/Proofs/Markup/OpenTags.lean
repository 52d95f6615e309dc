import XmlDelta.Proofs.Except
import XmlDelta.Proofs.Markup.Locality

set_option autoImplicit false

namespace XmlDelta.Markup

open XmlDelta.Text (EastAsian Encoding)
open XmlDelta.Document (Attributes)

/-- A start tag whose end has not come, and the encoding it was read in. -/
structure OpenTag where
  content : Bytes
  encoding : Encoding

variable [EastAsian]

namespace OpenTag

def name (t : OpenTag) : Bytes :=
  tagName t.content

def decodedName (t : OpenTag) : Payload String :=
  decodeText t.encoding t.name

def read (t : OpenTag) : Payload StartTag :=
  startTag t.encoding t.content

end OpenTag

namespace Item

variable (encoding : Encoding)

def event : Item → Event
  | text raw => .text (decodeText encoding raw >>= unescape)
  | cdata raw => .cdata (decodeText encoding raw)
  | skipped | instruction | declaration _ => .ignored
  | opening content => .start (startTag encoding content)
  | selfClosing content => .empty (startTag encoding content)
  | closing _ => .finish

def openAfter (ts : List OpenTag) : Item → List OpenTag
  | opening content => ⟨content, encoding⟩ :: ts
  | closing _ => ts.tail
  | _ => ts

end Item

def Event.openAfter (ts : List (Payload StartTag)) : Event → List (Payload StartTag)
  | start t => t :: ts
  | finish => ts.tail
  | _ => ts

theorem Item.map_read_openAfter (encoding : Encoding) (ts : List OpenTag) (i : Item) :
    (i.openAfter encoding ts).map OpenTag.read =
      (i.event encoding).openAfter (ts.map OpenTag.read) := by
  cases i with
  | closing name => exact List.map_tail
  | _ => rfl

inductive DocumentFault.OfPayload : DocumentFault → Prop where
  | badAttribute (f : AttributeFault) : OfPayload (.badAttribute f)
  | badReference (f : ReferenceFault) : OfPayload (.badReference f)
  | undecodable (e : Encoding) : OfPayload (.undecodable e)

section Payloads

variable {encoding : Encoding} {f : DocumentFault}

theorem ofPayload_of_decodeText {s : Bytes} (refused : decodeText encoding s = .error f) :
    f.OfPayload := by
  unfold decodeText at refused
  split at refused
  · cases refused
  · cases refused
    exact .undecodable encoding

omit [EastAsian] in
theorem ofPayload_of_unescape {s : String} (refused : unescape s = .error f) : f.OfPayload := by
  unfold unescape at refused
  split at refused
  · cases refused
  · cases refused
    exact .badReference _

theorem ofPayload_of_text {s : Bytes} (refused : decodeText encoding s >>= unescape = .error f) :
    f.OfPayload := by
  obtain undecoded | ⟨t, -, unresolved⟩ := bind_eq_error_iff.mp refused
  · exact ofPayload_of_decodeText undecoded
  · exact ofPayload_of_unescape unresolved

theorem ofPayload_of_decodeAttributes {fault : Option AttributeFault} {raws : List RawAttribute}
    {done : Attributes} (refused : decodeAttributes encoding fault done raws = .error f) :
    f.OfPayload := by
  induction raws generalizing done with
  | nil =>
    cases fault with
    | none => cases refused
    | some f =>
      cases refused
      exact .badAttribute f
  | cons a raws ih =>
    rw [decodeAttributes] at refused
    obtain key | ⟨k, -, refused⟩ := bind_eq_error_iff.mp refused
    · exact ofPayload_of_decodeText key
    obtain value | ⟨v, -, refused⟩ := bind_eq_error_iff.mp refused
    · exact ofPayload_of_text value
    · exact ih refused

theorem ofPayload_of_startTag {content : Bytes} (refused : startTag encoding content = .error f) :
    f.OfPayload := by
  obtain name | ⟨tag, -, refused⟩ := bind_eq_error_iff.mp refused
  · exact ofPayload_of_decodeText name
  obtain attributes | ⟨as, -, made⟩ := bind_eq_error_iff.mp refused
  · exact ofPayload_of_decodeAttributes attributes
  · cases made

theorem decodeText_of_startTag {content : Bytes} {t : StartTag}
    (read : startTag encoding content = .ok t) :
    decodeText encoding (tagName content) = .ok t.tag := by
  obtain ⟨tag, decoded, read⟩ := bind_eq_ok_iff.mp read
  obtain ⟨as, -, made⟩ := bind_eq_ok_iff.mp read
  cases made
  exact decoded

end Payloads

inductive Event.Carries (f : DocumentFault) : Event → Prop where
  | start : Carries f (.start (.error f))
  | empty : Carries f (.empty (.error f))
  | text : Carries f (.text (.error f))
  | cdata : Carries f (.cdata (.error f))

theorem Item.ofPayload_of_carries {encoding : Encoding} {f : DocumentFault} {i : Item}
    (carries : (i.event encoding).Carries f) : f.OfPayload := by
  generalize shape : i.event encoding = e at carries
  cases carries with
  | start =>
    cases i <;> simp only [Item.event, Event.start.injEq, reduceCtorEq] at shape
    exact ofPayload_of_startTag shape
  | empty =>
    cases i <;> simp only [Item.event, Event.empty.injEq, reduceCtorEq] at shape
    exact ofPayload_of_startTag shape
  | text =>
    cases i <;> simp only [Item.event, Event.text.injEq, reduceCtorEq] at shape
    exact ofPayload_of_text shape
  | cdata =>
    cases i <;> simp only [Item.event, Event.cdata.injEq, reduceCtorEq] at shape
    exact ofPayload_of_decodeText shape

namespace Reader

variable {r r' : Reader} {x : Scanned} {e : Event} {f : DocumentFault}

theorem exists_read_ignored (r : Reader) (content : Bytes) (size : Nat) (rest : Bytes) :
    ∃ r', r.read ⟨.declaration content, size, rest⟩ = .ok (.ignored, r') ∧ r'.opened = r.opened := by
  cases declared : r.declared? content with
  | none => exact ⟨_, read_declaration_of_none declared size rest, rfl⟩
  | some encoding => exact ⟨_, read_declaration_of_some declared size rest, rfl⟩

theorem event_of_read (read : r.read x = .ok (e, r')) : e = x.item.event r.encoding := by
  obtain ⟨item, size, rest⟩ := x
  cases item with
  | closing name =>
    obtain ⟨os, opened⟩ := exists_opened_of_read read
    rw [read_closing opened] at read
    cases read
    rfl
  | declaration content =>
    obtain ⟨r₁, ignored, -⟩ := r.exists_read_ignored content size rest
    rw [ignored] at read
    cases read
    rfl
  | _ =>
    cases read
    rfl

theorem map_name_openAfter {ts : List OpenTag} (names : ts.map OpenTag.name = r.opened)
    (read : r.read x = .ok (e, r')) :
    (x.item.openAfter r.encoding ts).map OpenTag.name = r'.opened := by
  obtain ⟨item, size, rest⟩ := x
  cases item with
  | opening content =>
    cases read
    exact congrArg (tagName content :: ·) names
  | closing name =>
    obtain ⟨os, opened⟩ := exists_opened_of_read read
    rw [read_closing opened] at read
    cases read
    rw [opened] at names
    exact List.map_tail.trans (congrArg List.tail names)
  | declaration content =>
    obtain ⟨r₁, ignored, same⟩ := r.exists_read_ignored content size rest
    rw [ignored] at read
    cases read
    exact names.trans same.symm
  | _ =>
    cases read
    exact names

theorem exists_opened_of_finish (read : r.read x = .ok (.finish, r')) :
    ∃ o os, r.opened = o :: os := by
  obtain ⟨item, size, rest⟩ := x
  have delivered := event_of_read read
  cases item with
  | closing name =>
    obtain ⟨os, opened⟩ := exists_opened_of_read read
    exact ⟨name, os, opened⟩
  | _ => cases delivered

theorem exists_markup_of_read (stopped : r.read x = .error f) : ∃ m n, f = .markup m n := by
  obtain ⟨item, size, rest⟩ := x
  cases item with
  | closing name =>
    simp only [Reader.read] at stopped
    split at stopped
    · cases stopped
      exact ⟨_, _, rfl⟩
    · split at stopped
      · cases stopped
      · cases stopped
        exact ⟨_, _, rfl⟩
  | declaration content =>
    obtain ⟨r₁, ignored, -⟩ := r.exists_read_ignored content size rest
    rw [ignored] at stopped
    cases stopped
  | _ => cases stopped

theorem exists_markup_of_next (stopped : r.next = .error f) : ∃ m n, f = .markup m n := by
  unfold Reader.next at stopped
  split at stopped
  · cases stopped
    exact ⟨_, _, rfl⟩
  · cases stopped
  · rename_i x _
    cases read : r.read x with
    | error f' =>
      rw [read] at stopped
      cases stopped
      exact exists_markup_of_read read
    | ok p =>
      rw [read] at stopped
      cases stopped

end Reader

end XmlDelta.Markup
