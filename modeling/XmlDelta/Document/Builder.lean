import XmlDelta.Markup.Event

set_option autoImplicit false

namespace XmlDelta.Document

open XmlDelta.Markup

structure OpenElement where
  element : Element
  seenChild : Bool := false

structure Builder where
  stack : List OpenElement := []
  root : Option Element := none

namespace OpenElement

def start (t : StartTag) : OpenElement :=
  { element := { tag := t.tag, attributes := t.attributes } }

def pushText (o : OpenElement) (s : String) : OpenElement :=
  if o.seenChild then o
  else { o with element := { o.element with text := some (o.element.text.getD "" ++ s) } }

def pushChild (o : OpenElement) (c : Element) : OpenElement :=
  { element := { o.element with children := c :: o.element.children }, seenChild := true }

def closed (o : OpenElement) : Element :=
  { o.element with children := o.element.children.reverse }

end OpenElement

namespace Builder

def seeChild : List OpenElement → List OpenElement
  | [] => []
  | o :: os => { o with seenChild := true } :: os

def attach (b : Builder) (e : Element) : Builder :=
  match b.stack with
  | [] => { b with root := some e }
  | o :: os => { b with stack := o.pushChild e :: os }

def step (b : Builder) : Event → Except DocumentFault Builder
  | .start t =>
    if b.root.isSome then .error .secondRoot
    else t.map fun t => { b with stack := .start t :: seeChild b.stack }
  | .empty t =>
    if b.root.isSome then .error .secondRoot
    else t.map fun t => b.attach { tag := t.tag, attributes := t.attributes }
  | .finish =>
    match b.stack with
    | [] => .error .unexpectedEnd
    | o :: os => .ok ({ b with stack := os }.attach o.closed)
  -- A text must be readable even where it is dropped.
  | .text s => do
    let s ← s
    match b.stack with
    | [] => if Text.isBlankText s then .ok b else .error .textOutsideRoot
    | o :: os => .ok { b with stack := o.pushText s :: os }
  | .cdata s => do
    let s ← s
    match b.stack with
    | [] => .error .cdataOutsideRoot
    | o :: os => .ok { b with stack := o.pushText s :: os }
  | .ignored => .ok b

def finish (b : Builder) : Except DocumentFault Element :=
  match b.stack with
  | o :: _ => .error (.unclosed o.element.tag)
  | [] =>
    match b.root with
    | some e => .ok e
    | none => .error .noRoot

def run (b : Builder) : List Event → Except DocumentFault Builder
  | [] => .ok b
  | e :: es => b.step e >>= fun b => b.run es

theorem run_append (b : Builder) (xs ys : List Event) :
    b.run (xs ++ ys) = b.run xs >>= fun b => b.run ys := by
  induction xs generalizing b with
  | nil => rfl
  | cons e xs ih =>
    simp only [List.cons_append, run]
    cases b.step e with
    | error f => rfl
    | ok b' => exact ih b'

end Builder

def build (es : List Event) : Except DocumentFault Element :=
  Builder.run {} es >>= Builder.finish

variable [Text.EastAsian]

def parseFrom (r : Reader) : Except DocumentFault Element :=
  -- The tree of what a reader delivers; a fault of the reader counts once all before it stands.
  match r.events with
  | (es, none) => build es
  | (es, some f) => Builder.run {} es >>= fun _ => .error f

def parseText (s : String) : Except DocumentFault Element :=
  parseFrom (.ofText s)

def parseBytes (b : List UInt8) : Except DocumentFault Element :=
  parseFrom (.ofBytes b)

end XmlDelta.Document
