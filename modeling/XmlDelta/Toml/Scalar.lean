import XmlDelta.Number.Decimal
import XmlDelta.Text.Split
import XmlDelta.Toml.Fault
import XmlDelta.Toml.Moment

set_option autoImplicit false

namespace XmlDelta.Toml

open XmlDelta.Number
open XmlDelta.Text

inductive Scalar where
  | boolean (b : Bool)
  | integer (n : Int)
  | float (isNegative : Bool) (magnitude : Decimal)
  | infinite (isNegative : Bool)
  | undefined
  | moment (text : String)
  deriving DecidableEq

namespace Scalar

def digitsOf (p : Char → Bool) (cs : List Char) : Option (List Char) :=
  let parts := split '_' cs
  if parts.all fun q => !q.isEmpty && q.all p then some parts.flatten else none

def wholeDigits (cs : List Char) : Option (List Char) :=
  (digitsOf isDigit cs).filter fun ds => ds.length == 1 || ds.head? != some '0'

def signed : List Char → Bool × List Char
  | '-' :: r => (true, r)
  | '+' :: r => (false, r)
  | s => (false, s)

def negate (isNegative : Bool) (n : Nat) : Int :=
  if isNegative then -(n : Int) else n

def radix? (c : Char) : Option Nat :=
  if c = 'x' then some 16 else if c = 'o' then some 8 else if c = 'b' then some 2 else none

def valueIn (radix : Nat) (ds : List Char) : Nat :=
  ds.foldl (fun n c => n * radix + (digitValue c).getD 0) 0

def radixInteger? : List Char → Option Int
  | '0' :: c :: r =>
    (radix? c).bind fun b =>
      (digitsOf (fun d => (digitBelow b d).isSome) r).map fun ds => (valueIn b ds : Int)
  | _ => none

def integer? (cs : List Char) : Option Int :=
  match radixInteger? cs with
  | some n => some n
  | none =>
    let (neg, r) := signed cs
    (wholeDigits r).map fun ds => negate neg (decimalValue ds)

def exponent? (cs : List Char) : Option Int :=
  let (neg, r) := signed cs
  (digitsOf isDigit r).map fun ds => negate neg (decimalValue ds)

def isExponentMark (c : Char) : Bool :=
  c = 'e' || c = 'E'

def decimal? (cs : List Char) : Option Decimal := do
  let mantissa := cs.takeWhile fun c => !isExponentMark c
  let power := cs.drop mantissa.length
  let whole := mantissa.takeWhile (· != '.')
  let places := mantissa.drop whole.length
  if places.isEmpty && power.isEmpty then none
  else
    let ds ← wholeDigits whole
    let fs ← if places.isEmpty then some [] else digitsOf isDigit (places.drop 1)
    let e ← if power.isEmpty then some 0 else exponent? (power.drop 1)
    return ⟨decimalValue (ds ++ fs), e - fs.length⟩

def float? (cs : List Char) : Option Scalar :=
  let (neg, r) := signed cs
  if r = ['i', 'n', 'f'] then some (infinite neg)
  else if r = ['n', 'a', 'n'] then some undefined
  else (decimal? r).map (float neg)

def ofWord? (cs : List Char) : Option Scalar :=
  if cs = ['t', 'r', 'u', 'e'] then some (boolean true)
  else if cs = ['f', 'a', 'l', 's', 'e'] then some (boolean false)
  else if isMoment cs then some (moment (String.ofList cs))
  else
    match integer? cs with
    | some n => some (integer n)
    | none => float? cs

end Scalar

def isDelimiter (c : Char) : Bool :=
  ['=', ',', '[', ']', '\x7b', '\x7d', '\'', '"', ' ', '\t', '#', '\r', '\n'].contains c

def isWordChar (c : Char) : Bool :=
  !isDelimiter c

def takeWord (s : List Char) : List Char × List Char :=
  let word := s.takeWhile isWordChar
  let rest := s.drop word.length
  match rest with
  | ' ' :: r =>
    let more := r.takeWhile isWordChar
    let both := word ++ ' ' :: more
    if isMoment both then (both, r.drop more.length) else (word, rest)
  | _ => (word, rest)

def readScalar (s : List Char) : Except Fault (Scalar × List Char) :=
  let (word, rest) := takeWord s
  if word.isEmpty then .error .expectedValue
  else
    match Scalar.ofWord? word with
    | some v => .ok (v, rest)
    | none => .error (.badScalar (String.ofList word))

end XmlDelta.Toml
