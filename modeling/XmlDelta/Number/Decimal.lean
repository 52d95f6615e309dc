import XmlDelta.Number.Shortest

set_option autoImplicit false

namespace XmlDelta.Number

namespace Decimal

def ratio (x : Decimal) : Nat × Nat :=
  (x.digits * pow10 x.exponent, pow10 (-x.exponent))

def magnitude (x : Decimal) : Int :=
  (Nat.repr x.digits).length + x.exponent

def isInRange (x : Decimal) : Bool :=
  if x.digits = 0 || x.magnitude < 300 then true
  else if 400 < x.magnitude then false
  else (Binary64.ofRatio x.ratio.1 x.ratio.2).isSome

end Decimal

end XmlDelta.Number
