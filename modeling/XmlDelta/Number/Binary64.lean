import XmlDelta.Number.Rounding

set_option autoImplicit false

namespace XmlDelta.Number

structure Binary64 where
  mantissa : Nat
  exponent : Int
  deriving DecidableEq

namespace Binary64

def precision : Nat := 53
def leastExponent : Int := -1074

def zero : Binary64 := ⟨0, 0⟩

def pow2 (e : Int) : Nat :=
  twoTo e.toNat

def ratio (x : Binary64) : Nat × Nat :=
  (x.mantissa * pow2 x.exponent, pow2 (-x.exponent))

def floorLog2 (n d : Nat) : Int :=
  let g : Int := (Nat.log2 n : Int) - Nat.log2 d
  if d * pow2 g ≤ n * pow2 (-g) then g else g - 1

def isFinite (x : Binary64) : Bool :=
  x.mantissa * pow2 (x.exponent - 971) < twoTo 53

def carry (m : Nat) (e : Int) : Binary64 :=
  if m = twoTo precision then ⟨twoTo (precision - 1), e + 1⟩ else ⟨m, e⟩

def ofRatio (n d : Nat) : Option Binary64 :=
  if n = 0 then some zero
  else
    let e := max (floorLog2 n d - (precision - 1)) leastExponent
    -- One of the two powers is 1, so that `m` is the quotient in units of `2 ^ e`.
    let m := divNearest (n * pow2 (-e)) (d * pow2 e)
    let x := carry m e
    if x.isFinite then some x else none

def ofNat (n : Nat) : Option Binary64 :=
  ofRatio n 1

def add (x y : Binary64) : Option Binary64 :=
  let (a, b) := x.ratio
  let (c, d) := y.ratio
  ofRatio (a * d + c * b) (b * d)

def mul (x y : Binary64) : Option Binary64 :=
  let (a, b) := x.ratio
  let (c, d) := y.ratio
  ofRatio (a * c) (b * d)

def div (x y : Binary64) : Option Binary64 :=
  let (a, b) := x.ratio
  let (c, d) := y.ratio
  ofRatio (a * d) (b * c)

def floor (x : Binary64) : Nat :=
  x.ratio.1 / x.ratio.2

def modNat (x : Binary64) (n : Nat) : Nat × Nat :=
  (x.ratio.1 % (n * x.ratio.2), x.ratio.2)

end Binary64

end XmlDelta.Number
