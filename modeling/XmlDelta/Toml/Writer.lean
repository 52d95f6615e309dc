import XmlDelta.Text.Digit

set_option autoImplicit false

namespace XmlDelta.Toml

open XmlDelta.Text

inductive Form where
  | basic
  | literal
  | longBasic
  | longLiteral
  deriving DecidableEq

def isControl (c : Char) : Bool :=
  (c.toNat < 32 && c != '\t' && c != '\n') || c.toNat == 127

def longestRun (q : Char) (current longest : Nat) : List Char → Nat
  | [] => longest
  | c :: r =>
    if c = q then longestRun q (current + 1) (max longest (current + 1)) r
    else longestRun q 0 longest r

def isSimple (c : Char) : Bool :=
  c.isAlphanum || ['_', '-', '.', '/', ' ', ':'].contains c

def formOf (cs : List Char) : Form :=
  let control := cs.any isControl
  let several := cs.contains '\n'
  let run (q : Char) : Nat := longestRun q 0 0 cs
  if cs.all isSimple then .basic
  else if !control && !cs.contains '\\' && run '"' = 0 && !several then .basic
  else if !control && run '\'' = 0 && !several then .literal
  else if !control && !cs.contains '\\' && run '"' ≤ 2 then .longBasic
  else if !control && run '\'' ≤ 2 then .longLiteral
  else if several then .longBasic
  else .basic

def escapeOf? (c : Char) : Option (List Char) :=
  if c = '\\' then some ['\\', '\\']
  else if c = '\n' then some ['\\', 'n']
  else if c = '\r' then some ['\\', 'r']
  else if c.toNat = 8 then some ['\\', 'b']
  else if c.toNat = 12 then some ['\\', 'f']
  else if isControl c then
    some ['\\', 'u', '0', '0', upperHexDigit (c.toNat / 16), upperHexDigit (c.toNat % 16)]
  else none

def escapeBasic (cs : List Char) : List Char :=
  cs.flatMap fun c =>
    if c = '"' then ['\\', '"']
    else if c = '\t' then ['\\', 't']
    else (escapeOf? c).getD [c]

def escapeLong (quotes : Nat) : List Char → List Char
  | [] => []
  | c :: r =>
    if c = '"' then
      if quotes = 2 then '\\' :: '"' :: escapeLong 0 r else '"' :: escapeLong (quotes + 1) r
    else if c = '\n' then '\n' :: escapeLong 0 r
    else if c = '\t' then '\\' :: 't' :: escapeLong 0 r
    else (escapeOf? c).getD [c] ++ escapeLong 0 r

def tripled (q : Char) (cs body : List Char) : List Char :=
  [q, q, q] ++ (if cs.contains '\n' then ['\n'] else []) ++ body ++ [q, q, q]

def writeAs (cs : List Char) : Form → List Char
  | .basic => '"' :: escapeBasic cs ++ ['"']
  | .literal => '\'' :: cs ++ ['\'']
  | .longBasic => tripled '"' cs (escapeLong 0 cs)
  | .longLiteral => tripled '\'' cs cs

def stringText (s : String) : List Char :=
  writeAs s.toList (formOf s.toList)

end XmlDelta.Toml
