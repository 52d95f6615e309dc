import XmlDelta.Text.Digit

set_option autoImplicit false

namespace XmlDelta.Toml

open XmlDelta.Text

def digits? (n : Nat) (s : List Char) : Option (Nat × List Char) :=
  let ds := s.take n
  if ds.length = n && ds.all isDigit then some (decimalValue ds, s.drop n) else none

def expect? (c : Char) : List Char → Option (List Char)
  | [] => none
  | d :: r => if d = c then some r else none

def isLeap (year : Nat) : Bool :=
  (year % 4 == 0 && year % 100 != 0) || year % 400 == 0

def daysIn (year month : Nat) : Nat :=
  if month = 2 then if isLeap year then 29 else 28
  else if month = 4 || month = 6 || month = 9 || month = 11 then 30
  else 31

def date? (s : List Char) : Option (List Char) := do
  let (year, s) ← digits? 4 s
  let s ← expect? '-' s
  let (month, s) ← digits? 2 s
  let s ← expect? '-' s
  let (day, s) ← digits? 2 s
  if 1 ≤ month ∧ month ≤ 12 ∧ 1 ≤ day ∧ day ≤ daysIn year month then some s else none

def fraction? (s : List Char) : Option (List Char) :=
  match expect? '.' s with
  | none => some s
  | some r => if r.head?.any isDigit then some (r.dropWhile isDigit) else none

def clock? (s : List Char) : Option (Nat × Nat × List Char) := do
  let (hour, s) ← digits? 2 s
  let s ← expect? ':' s
  let (minute, s) ← digits? 2 s
  if hour ≤ 23 ∧ minute ≤ 59 then some (hour, minute, s) else none

def time? (s : List Char) : Option (List Char) := do
  let (_, _, s) ← clock? s
  match expect? ':' s with
  | none => some s
  | some r =>
    let (second, r) ← digits? 2 r
    if second ≤ 60 then fraction? r else none

def offset? (s : List Char) : Option (List Char) :=
  match s with
  | [] => some []
  | c :: r =>
    if c = 'Z' || c = 'z' then some r
    else if c = '+' || c = '-' then (clock? r).map fun p => p.2.2
    else none

def isDated (s : List Char) : Bool :=
  match date? s with
  | none => false
  | some [] => true
  | some (c :: r) =>
    (c = 'T' || c = 't' || c = ' ') && ((time? r).bind offset?) == some []

def isMoment (s : List Char) : Bool :=
  isDated s || time? s == some []

end XmlDelta.Toml
