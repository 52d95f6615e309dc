import XmlDelta.Number.Power

set_option autoImplicit false

namespace XmlDelta.Number

def divNearest (n d : Nat) : Nat :=
  let q := n / d
  let r := n % d
  if 2 * r < d then q
  else if d < 2 * r then q + 1
  else if q % 2 = 0 then q else q + 1

theorem divNearest_error {n d : Nat} (h : 0 < d) :
    2 * n ≤ 2 * (divNearest n d * d) + d ∧ 2 * (divNearest n d * d) ≤ 2 * n + d := by
  have e := Nat.div_add_mod n d
  have l := Nat.mod_lt n h
  have c : d * (n / d) = n / d * d := Nat.mul_comm _ _
  simp only [divNearest]
  repeat' split
  all_goals (try simp only [Nat.add_mul, Nat.one_mul]); omega

def padLeft (width : Nat) (cs : List Char) : List Char :=
  List.replicate (width - cs.length) '0' ++ cs

def fixedDecimal (places n d : Nat) : String :=
  let scaled := divNearest (n * tenTo places) d
  let whole := Nat.repr (scaled / tenTo places)
  let part := padLeft places (Nat.repr (scaled % tenTo places)).toList
  whole ++ "." ++ String.ofList part

end XmlDelta.Number
