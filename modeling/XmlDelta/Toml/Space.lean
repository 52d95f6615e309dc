set_option autoImplicit false

namespace XmlDelta.Toml

def isBlank (c : Char) : Bool :=
  c = ' ' || c = '\t'

def skipBlanks (s : List Char) : List Char :=
  s.dropWhile isBlank

def isPlain (c : Char) : Bool :=
  c = '\t' || (32 ≤ c.toNat && c.toNat != 127)

def lineEnd? : List Char → Option (List Char)
  | '\n' :: r => some r
  | '\r' :: '\n' :: r => some r
  | _ => none

def startsLine (s : List Char) : Bool :=
  s.head? == some '\n'

def skipLines (comment : Bool) : List Char → List Char
  | [] => []
  | c :: r =>
    if c = '\n' then skipLines false r
    else if c = '\r' && startsLine r then skipLines false r
    else if comment then if isPlain c then skipLines true r else c :: r
    else if isBlank c then skipLines false r
    else if c = '#' then skipLines true r
    else c :: r

def skipGap (s : List Char) : List Char :=
  skipLines false s

def endLine? (s : List Char) : Option (List Char) :=
  match skipBlanks s with
  | [] => some []
  | c :: r =>
    if c = '#' then
      match r.dropWhile isPlain with
      | [] => some []
      | t => lineEnd? t
    else lineEnd? (c :: r)

end XmlDelta.Toml
