import XmlDelta.Document.Element
import XmlDelta.Markup.Fault

set_option autoImplicit false

namespace XmlDelta.Markup

open XmlDelta.Text (EastAsian Encoding)
open XmlDelta.Document (Attributes)

structure StartTag where
  tag : String
  attributes : Attributes

abbrev Payload (α : Type) := Except DocumentFault α

inductive Event where
  | start (tag : Payload StartTag)
  | empty (tag : Payload StartTag)
  | finish
  | text (content : Payload String)
  | cdata (content : Payload String)
  | ignored

structure Reader where
  rest : Bytes
  offset : Nat := 0
  opened : List Bytes := []
  encoding : Encoding := .utf8
  settled : Bool := false

variable [EastAsian]

def decodeText (e : Encoding) (s : Bytes) : Payload String :=
  match e.decode s with
  | some t => .ok t
  | none => .error (.undecodable e)

def unescape (s : String) : Payload String :=
  match resolveReferences s with
  | .ok t => .ok t
  | .error f => .error (.badReference f)

def decodeAttributes (e : Encoding) (fault : Option AttributeFault) (done : Attributes) :
    List RawAttribute → Payload Attributes
  -- Decodes attributes one after the other; the fault that ended their reading comes last.
  | [] =>
    match fault with
    | none => .ok done
    | some f => .error (.badAttribute f)
  | a :: r => do
    let k ← decodeText e a.key
    let v ← decodeText e a.value >>= unescape
    decodeAttributes e fault (done.set k v) r

def startTag (e : Encoding) (content : Bytes) : Payload StartTag := do
  let tag ← decodeText e (tagName content)
  let raw := Markup.attributes true content
  let attributes ← decodeAttributes e raw.2 {} raw.1
  return ⟨tag, attributes⟩

def declaredEncoding (content : Bytes) : Option Encoding :=
  ((Markup.attributes false (content.drop 3)).1.find? (·.key == bytes "encoding")).bind
    fun a => Encoding.ofLabel? a.value

def shownName (e : Encoding) (name : Bytes) : String :=
  (e.decode name).getD ""

namespace Reader

def ofText (s : String) : Reader :=
  -- A text is UTF-8 whatever it declares.
  let b := XmlDelta.Text.Utf8.encode s.toList
  let rest := if [0xEF, 0xBB, 0xBF].isPrefixOf b then b.drop 3 else b
  { rest, settled := true }

def ofBytes (b : Bytes) : Reader :=
  -- Bytes show their encoding by a byte order mark or by a declaration's first characters.
  if [0xFE, 0xFF].isPrefixOf b then { rest := b.drop 2, encoding := .utf16be }
  else if [0xFF, 0xFE].isPrefixOf b then { rest := b.drop 2, encoding := .utf16le }
  else if [0xEF, 0xBB, 0xBF].isPrefixOf b then { rest := b.drop 3 }
  else if [0x00, 0x3C, 0x00, 0x3F].isPrefixOf b then { rest := b, encoding := .utf16be }
  else if [0x3C, 0x00, 0x3F, 0x00].isPrefixOf b then { rest := b, encoding := .utf16le }
  else { rest := b }

def read (r : Reader) (x : Scanned) : Except DocumentFault (Event × Reader) :=
  let r' := { r with rest := x.rest, offset := r.offset + x.size }
  match x.item with
  | .text raw => .ok (.text (decodeText r.encoding raw >>= unescape), r')
  | .cdata raw => .ok (.cdata (decodeText r.encoding raw), r')
  | .skipped => .ok (.ignored, r')
  | .instruction => .ok (.ignored, r')
  | .declaration content =>
    -- Only the first declaration that names a known encoding counts.
    match if r.settled then none else declaredEncoding content with
    | some e => .ok (.ignored, { r' with encoding := e, settled := true })
    | none => .ok (.ignored, r')
  | .opening content =>
    .ok (.start (startTag r.encoding content), { r' with opened := tagName content :: r.opened })
  | .selfClosing content => .ok (.empty (startTag r.encoding content), r')
  | .closing name =>
    match r.opened with
    | [] => .error (.markup (.unmatchedEnd (shownName r.encoding name)) r.offset)
    | o :: os =>
      if name = o then .ok (.finish, { r' with opened := os })
      else .error (.markup
        (.mismatchedEnd (shownName r.encoding o) (shownName r.encoding name)) r.offset)

theorem read_rest {r r' : Reader} {x : Scanned} {e : Event} (h : r.read x = .ok (e, r')) :
    r'.rest = x.rest := by
  unfold read at h
  repeat' split at h
  all_goals cases h
  all_goals rfl

def next (r : Reader) : Except DocumentFault (Option (Event × Reader)) :=
  match scan r.rest with
  | .error (f, behind) => .error (.markup (.scan f) (r.offset + behind))
  | .ok none => .ok none
  | .ok (some x) => (r.read x).map some

theorem next_length {r r' : Reader} {e : Event} (h : r.next = .ok (some (e, r'))) :
    r'.rest.length < r.rest.length := by
  unfold next at h
  split at h
  · cases h
  · cases h
  · rename_i x hx
    cases hr : r.read x with
    | error f => simp [hr, Except.map] at h
    | ok p =>
      simp only [hr, Except.map, Except.ok.injEq, Option.some.injEq] at h
      subst h
      rw [read_rest hr]
      exact (scan_size hx).1

def eventsFrom (seen : List Event) (r : Reader) : List Event × Option DocumentFault :=
  match _h : r.next with
  | .error f => (seen.reverse, some f)
  | .ok none => (seen.reverse, none)
  | .ok (some (e, r')) => eventsFrom (e :: seen) r'
termination_by r.rest.length
decreasing_by exact next_length _h

def events (r : Reader) : List Event × Option DocumentFault :=
  eventsFrom [] r

end Reader

end XmlDelta.Markup
