import XmlDelta.Number.Power
import XmlDelta.Text.Digit

set_option autoImplicit false

namespace XmlDelta.Text

def unsigned : List Char → List Char
  | '+' :: r => r
  | s => s

def count? (s : String) : Option Nat :=
  let ds := unsigned s.toList
  if ds.isEmpty || !ds.all isDigit then none
  else if decimalValue ds < Number.twoTo 64 then some (decimalValue ds)
  else none

end XmlDelta.Text
