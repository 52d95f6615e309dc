import XmlDelta.Number.Power
import XmlDelta.Text.Digit
import XmlDelta.Text.Utf8

set_option autoImplicit false

namespace XmlDelta.Markup

open XmlDelta.Text

inductive NumberFault where
  | sign
  | empty
  | digit
  | overflow
  | zero
  | codepoint (value : Nat)
  deriving DecidableEq

namespace NumberFault

def message : NumberFault → String
  | sign => "unexpected number sign"
  | empty => "cannot parse integer from empty string"
  | digit => "invalid digit found in string"
  | overflow => "number too large to fit in target type"
  | zero => "0x0 character is not permitted in XML"
  | codepoint n => s!"`{n}` is not a valid codepoint"

end NumberFault

inductive ReferenceFault where
  | unterminated (start stop : Nat)
  | unknown (start stop : Nat) (name : String)
  | number (fault : NumberFault)
  deriving DecidableEq

namespace ReferenceFault

def message : ReferenceFault → String
  | unterminated s e =>
    s!"Error while escaping character at range {s}..{e}: Cannot find ';' after '&'"
  | unknown s e name => s!"at {s}..{e}: unrecognized entity `{name}`"
  | number f => s!"invalid character reference: {f.message}"

end ReferenceFault

def digitsValue (radix value : Nat) : List Char → Except NumberFault Nat
  -- Reads digits left to right; the first one that is wrong or too much decides the fault.
  | [] => .ok value
  | c :: r =>
    match digitValue c with
    | none => .error .digit
    | some d =>
      if radix ≤ d then .error .digit
      else if Number.twoTo 32 ≤ value * radix + d then .error .overflow
      else digitsValue radix (value * radix + d) r

def number (radix : Nat) : List Char → Except NumberFault Nat
  | [] => .error .empty
  | c :: r => if c = '+' || c = '-' then .error .sign else digitsValue radix 0 (c :: r)

def charOfNumber (n : Nat) : Except NumberFault Char :=
  if n = 0 then .error .zero
  else if h : n.isValidChar then .ok (Char.ofNatAux n h)
  else .error (.codepoint n)

def charReference (cs : List Char) : Except NumberFault Char :=
  match cs with
  | 'x' :: r => number 16 r >>= charOfNumber
  | cs => number 10 cs >>= charOfNumber

def namedCharacter : List Char → Option Char
  | ['l', 't'] => some '<'
  | ['g', 't'] => some '>'
  | ['a', 'm', 'p'] => some '&'
  | ['a', 'p', 'o', 's'] => some '\''
  | ['q', 'u', 'o', 't'] => some '"'
  | _ => none

def resolve (start : Nat) (name : List Char) : Except ReferenceFault Char :=
  match name with
  | '#' :: r =>
    match charReference r with
    | .ok c => .ok c
    | .error f => .error (.number f)
  | _ =>
    match namedCharacter name with
    | some c => .ok c
    | none => .error (.unknown start (start + (Utf8.encode name).length) (String.ofList name))

def inReference (c : Char) : Bool :=
  c != '&' && c != ';'

def resolveFrom (total offset : Nat) (seen s : List Char) : Except ReferenceFault (List Char) :=
  match s with
  | [] => .ok seen.reverse
  | c :: r =>
    if c = '&' then
      let name := r.takeWhile inReference
      match _h : r.dropWhile inReference with
      | ';' :: rest =>
        match resolve (offset + 1) name with
        | .ok d => resolveFrom total (offset + (Utf8.encode name).length + 2) (d :: seen) rest
        | .error f => .error f
      | _ => .error (.unterminated offset total)
    else resolveFrom total (offset + Utf8.width c) (c :: seen) r
termination_by s.length
decreasing_by
  · have := (List.dropWhile_suffix inReference (l := r)).length_le
    simp only [_h, List.length_cons] at this ⊢
    omega
  · simp

def resolveReferences (s : String) : Except ReferenceFault String :=
  (resolveFrom (Utf8.encode s.toList).length 0 [] s.toList).map String.ofList

end XmlDelta.Markup
