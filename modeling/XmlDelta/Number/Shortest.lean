import XmlDelta.Number.Binary64

set_option autoImplicit false

namespace XmlDelta.Number

structure Decimal where
  digits : Nat
  exponent : Int
  deriving DecidableEq

def pow10 (e : Int) : Nat :=
  tenTo e.toNat

structure Interval where
  low : Nat × Nat
  high : Nat × Nat
  closed : Bool

def Binary64.interval (x : Binary64) : Interval :=
  let half (m : Nat) (e : Int) : Nat × Nat :=
    (m * Binary64.pow2 (e - 2), Binary64.pow2 (2 - e))
  -- Below a power of two the numbers lie twice as close.
  let atPower := x.mantissa = twoTo 52 ∧ Binary64.leastExponent < x.exponent
  let below := if atPower then 1 else 2
  ⟨half (4 * x.mantissa - below) x.exponent, half (4 * x.mantissa + 2) x.exponent,
    x.mantissa % 2 = 0⟩

def Interval.holds (i : Interval) (n d : Nat) : Bool :=
  if i.closed then i.low.1 * d ≤ n * i.low.2 && n * i.high.2 ≤ i.high.1 * d
  else i.low.1 * d < n * i.low.2 && n * i.high.2 < i.high.1 * d

def nearestOnGrid (i : Interval) (n d : Nat) (e : Int) : Option Nat :=
  let a := n * pow10 (-e)
  let b := d * pow10 e
  let q := a / b
  let r := a % b
  let fits (k : Nat) : Bool := i.holds (k * pow10 e) (pow10 (-e))
  let upFirst := b < 2 * r || (b = 2 * r && q % 2 = 1)
  let order := if upFirst then [q + 1, q] else [q, q + 1]
  order.find? fits

def floorLog10 (n d : Nat) : Int :=
  let g : Int := ((Nat.repr n).length : Int) - (Nat.repr d).length
  if d * pow10 g ≤ n * pow10 (-g) then g else g - 1

def stripZeros (fuel : Nat) (x : Decimal) : Decimal :=
  match fuel with
  | 0 => x
  | f + 1 =>
    if x.digits % 10 = 0 ∧ x.digits ≠ 0 then stripZeros f ⟨x.digits / 10, x.exponent + 1⟩ else x

def shortest (x : Binary64) : Decimal :=
  if x.mantissa = 0 then ⟨0, 0⟩
  else
    let (n, d) := x.ratio
    let p := floorLog10 n d
    let grid (k : Nat) : Option Decimal :=
      (nearestOnGrid x.interval n d (p - (k : Int))).map fun q => ⟨q, p - (k : Int)⟩
    let found := (List.range 17).findSome? grid
    stripZeros 20 (found.getD ⟨0, 0⟩)

def decimalText (x : Decimal) : String :=
  -- Positional between 1e-5 and 1e16, always with a fraction; otherwise with an exponent.
  let ds := (Nat.repr x.digits).toList
  let len := ds.length
  let point : Int := len + x.exponent
  let zeros (n : Nat) : List Char := List.replicate n '0'
  if x.digits = 0 then "0.0"
  else if 0 ≤ x.exponent ∧ point ≤ 16 then
    String.ofList (ds ++ zeros x.exponent.toNat ++ ['.', '0'])
  else if 0 < point ∧ point ≤ 16 then
    String.ofList (ds.take point.toNat ++ ['.'] ++ ds.drop point.toNat)
  else if -5 < point ∧ point ≤ 0 then String.ofList (['0', '.'] ++ zeros (-point).toNat ++ ds)
  else
    let lead := ds.take 1 ++ if len = 1 then [] else '.' :: ds.drop 1
    String.ofList lead ++ "e" ++ toString (point - 1)

end XmlDelta.Number
