import XmlDelta.Json.Fault
import XmlDelta.Number.Shortest
import XmlDelta.Text.Digit

set_option autoImplicit false

namespace XmlDelta.Json

open XmlDelta.Number
open XmlDelta.Text (isDigit digit)

inductive Numeral where
  | natural (n : Nat)
  | negative (n : Nat)
  | float (isNegative : Bool) (magnitude : Binary64)
  deriving DecidableEq

def Numeral.description : Numeral → String
  | natural n => s!"integer `{n}`"
  | negative n => s!"integer `-{n}`"
  | float neg x =>
    "floating point `" ++ (if neg then "-" else "") ++ decimalText (shortest x) ++ "`"

def takeDigits (value count : Nat) : List Char → Nat × Nat × List Char
  | [] => (value, count, [])
  | c :: r =>
    if isDigit c && value * 10 + digit c < twoTo 64 then
      takeDigits (value * 10 + digit c) (count + 1) r
    else (value, count, c :: r)

def scaleDown (fuel : Nat) (f : Binary64) (exponent : Nat) : Option (Binary64 × Nat) :=
  match fuel with
  | 0 => some (f, exponent)
  | n + 1 =>
    if exponent ≤ 308 then some (f, exponent)
    else if f.mantissa = 0 then some (f, 0)
    else
      match Binary64.ofNat (tenTo 308) with
      | none => none
      | some p => (f.div p).bind fun g => scaleDown n g (exponent - 308)

def scale (significand : Nat) (exponent : Int) : Option Binary64 :=
  -- `significand * 10 ^ exponent`, with one rounding for each of the two and their product.
  (Binary64.ofNat significand).bind fun f =>
    if 0 ≤ exponent then
      if exponent ≤ 308 then
        (Binary64.ofNat (tenTo exponent.toNat)).bind fun p => f.mul p
      else if f.mantissa = 0 then some f
      else none
    else
      (scaleDown 10 f (-exponent).toNat).bind fun (g, e) =>
        if g.mantissa = 0 then some g
        else (Binary64.ofNat (tenTo e)).bind fun p => g.div p

def floatOf (neg : Bool) (significand : Nat) (exponent : Int) : Except Fault Numeral :=
  match scale significand exponent with
  | some x => .ok (.float neg x)
  | none => .error .numberOutOfRange

def exponentLimit : Nat := twoTo 31 - 1

def exponentValue (value : Nat) : List Char → Option Nat
  -- The digits of an exponent; none once they pass 31 bits.
  | [] => some value
  | c :: r =>
    if exponentLimit < value * 10 + digit c then none else exponentValue (value * 10 + digit c) r

def clampExponent (e : Int) : Int :=
  max (-(exponentLimit + 1 : Int)) (min exponentLimit e)

def readExponent (neg : Bool) (significand : Nat) (start : Int) (s : List Char) :
    Reading Numeral :=
  let (negExp, t) :=
    match s with
    | '+' :: r => (false, r)
    | '-' :: r => (true, r)
    | _ => (false, s)
  match t with
  | [] => .error .eofValue
  | c :: _ =>
    if isDigit c then
      let rest := t.dropWhile isDigit
      match exponentValue 0 (t.takeWhile isDigit) with
      | none =>
        if significand ≠ 0 ∧ negExp = false then .error .numberOutOfRange
        else .ok (.float neg .zero, rest)
      | some e =>
        let total := clampExponent (if negExp then start - e else start + e)
        (floatOf neg significand total).map (·, rest)
    else .error .invalidNumber

def readFloatEnd (neg : Bool) (significand : Nat) (exponent : Int) (s : List Char) :
    Reading Numeral :=
  match s with
  | c :: r =>
    if c = 'e' || c = 'E' then readExponent neg significand exponent r
    else (floatOf neg significand exponent).map (·, c :: r)
  | [] => (floatOf neg significand exponent).map (·, [])

def readDecimal (neg : Bool) (significand : Nat) (before : Int) (s : List Char) :
    Reading Numeral :=
  let (value, count, rest) := takeDigits significand 0 s
  let more := rest.dropWhile isDigit
  if count = 0 ∧ more.length = rest.length then
    match rest with
    | [] => .error .eofValue
    | _ => .error .invalidNumber
  else readFloatEnd neg value (before - count) more

def readFraction (neg : Bool) (significand : Nat) (s : List Char) : Reading Numeral :=
  match s with
  | c :: r =>
    if c = '.' then readDecimal neg significand 0 r
    else if c = 'e' || c = 'E' then readExponent neg significand 0 r
    else integer (c :: r)
  | [] => integer []
where
  integer (rest : List Char) : Reading Numeral :=
    if neg = false then .ok (.natural significand, rest)
    else if 0 < significand ∧ significand ≤ twoTo 63 then .ok (.negative significand, rest)
    else (floatOf true significand 0).map (·, rest)

def readLong (neg : Bool) (significand : Nat) (s : List Char) : Reading Numeral :=
  -- An integer part of more than 64 bits: the further digits only count.
  let more := s.takeWhile isDigit
  match s.dropWhile isDigit with
  -- Decimal places move the point back, but the digits passed over still count.
  | '.' :: r => readDecimal neg significand more.length r
  | rest => readFloatEnd neg significand more.length rest

def readNumber (neg : Bool) (s : List Char) : Reading Numeral :=
  match s with
  | [] => .error .eofValue
  | c :: r =>
    if c = '0' then
      match r with
      | d :: _ => if isDigit d then .error .invalidNumber else readFraction neg 0 r
      | [] => readFraction neg 0 r
    else if isDigit c then
      let (value, _, rest) := takeDigits 0 0 (c :: r)
      match rest with
      | d :: _ => if isDigit d then readLong neg value rest else readFraction neg value rest
      | [] => readFraction neg value rest
    else .error .invalidNumber

def skipDigits (s : List Char) : Except Fault (List Char) :=
  match s with
  | c :: r => if isDigit c then .ok (r.dropWhile isDigit) else .error .invalidNumber
  | [] => .error .invalidNumber

def skipSign (s : List Char) : List Char :=
  match s with
  | c :: r => if c = '+' || c = '-' then r else s
  | [] => []

def skipExponent (s : List Char) : Except Fault (List Char) :=
  match s with
  | c :: r => if c = 'e' || c = 'E' then skipDigits (skipSign r) else .ok s
  | [] => .ok []

def skipFraction (s : List Char) : Except Fault (List Char) :=
  match s with
  | c :: r => if c = '.' then skipDigits r >>= skipExponent else skipExponent s
  | [] => .ok []

def skipNumber (s : List Char) : Except Fault (List Char) :=
  match s with
  | [] => .error .invalidNumber
  | c :: r =>
    if c = '0' then
      if (r.head?.map isDigit).getD false then .error .invalidNumber else skipFraction r
    else if isDigit c then skipFraction (r.dropWhile isDigit)
    else .error .invalidNumber

end XmlDelta.Json
