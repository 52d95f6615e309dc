set_option autoImplicit false

namespace XmlDelta.Toml

inductive Fault where
  | expectedKey
  | expectedEquals
  | expectedValue
  | expectedNewline
  | expectedBracket
  | expectedComma
  | unclosedString
  | badCharacter
  | badEscape
  | badScalar (word : String)
  | tooDeep
  | duplicateKey (name : String)
  | notATable (name : String)
  | numberTooLarge
  | wrongType (expected : String)
  | missingField (name : String)
  | duplicateField (name : String)
  | invalidLength (found : Nat) (expected : String)
  deriving DecidableEq

def Fault.message : Fault → String
  | expectedKey => "expected a key"
  | expectedEquals => "expected `=`"
  | expectedValue => "expected a value"
  | expectedNewline => "expected a newline"
  | expectedBracket => "expected `]`"
  | expectedComma => "expected `,` or a closing bracket"
  | unclosedString => "unclosed string"
  | badCharacter => "invalid character in a string"
  | badEscape => "invalid escape"
  | badScalar w => s!"invalid value `{w}`"
  | tooDeep => "too many nested values"
  | duplicateKey n => s!"duplicate key `{n}`"
  | notATable n => s!"`{n}` is not a table"
  | numberTooLarge => "number too large"
  | wrongType e => s!"invalid type, expected {e}"
  | missingField n => s!"missing field `{n}`"
  | duplicateField n => s!"duplicate field `{n}`"
  | invalidLength n e => s!"invalid length {n}, expected {e}"

end XmlDelta.Toml
