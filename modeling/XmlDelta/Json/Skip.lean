import XmlDelta.Json.Number
import XmlDelta.Json.Text

set_option autoImplicit false

namespace XmlDelta.Json

def readWord (word : List Char) (s : List Char) : Except Fault (List Char) :=
  match word, s with
  | [], s => .ok s
  | _ :: _, [] => .error .eofValue
  | w :: ws, c :: r => if c = w then readWord ws r else .error .expectedIdent

inductive Frame where
  | list
  | object
  deriving DecidableEq

def Frame.eof : Frame → Fault
  | list => .eofList
  | object => .eofObject

def Frame.comma : Frame → Fault
  | list => .expectedListComma
  | object => .expectedObjectComma

def Frame.closing : Frame → Char
  | list => ']'
  | object => '\x7d'

def skipKey : Frame → List Char → Except Fault (List Char)
  | .list, s => .ok s
  | .object, s =>
    match skipSpace s with
    | [] => .error .eofObject
    | c :: r =>
      if c = '"' then do
        let r ← skipText r
        match skipSpace r with
        | [] => .error .eofObject
        | d :: t => if d = ':' then .ok t else .error .expectedColon
      else .error .keyNotString

def skipScalar (c : Char) (r : List Char) : Except Fault (List Char) :=
  if c = 'n' then readWord ['u', 'l', 'l'] r
  else if c = 't' then readWord ['r', 'u', 'e'] r
  else if c = 'f' then readWord ['a', 'l', 's', 'e'] r
  else if c = '"' then skipText r
  else if c = '-' then skipNumber r
  else if Text.isDigit c then skipNumber (c :: r)
  else .error .expectedValue

inductive SkipState where
  | value
  | opened
  | complete

def skipFrom (fuel : Nat) (state : SkipState) (frames : List Frame) (s : List Char) :
    Except Fault (List Char) :=
  -- `fuel` bounds the steps; of two steps in a row one takes a character.
  match fuel with
  | 0 => .error .eofValue
  | n + 1 =>
    match state with
    | .value =>
      match skipSpace s with
      | [] => .error .eofValue
      | c :: r =>
        if c = '[' then skipFrom n .opened (.list :: frames) r
        else if c = '\x7b' then skipFrom n .opened (.object :: frames) r
        else skipScalar c r >>= skipFrom n .complete frames
    | .opened =>
      match frames with
      | [] => .ok s
      | f :: fs =>
        match skipSpace s with
        | [] => .error f.eof
        | c :: r =>
          if c = f.closing then skipFrom n .complete fs r
          else skipKey f (c :: r) >>= skipFrom n .value frames
    | .complete =>
      match frames with
      | [] => .ok s
      | f :: fs =>
        match skipSpace s with
        | [] => .error f.eof
        | c :: r =>
          if c = ',' then skipKey f r >>= skipFrom n .value frames
          else if c = f.closing then skipFrom n .complete fs r
          else .error f.comma

def skipValue (s : List Char) : Except Fault (List Char) :=
  skipFrom (2 * s.length + 2) .value [] s

end XmlDelta.Json
