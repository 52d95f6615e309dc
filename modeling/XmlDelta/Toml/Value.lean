import XmlDelta.Toml.Table
import XmlDelta.Toml.Text

set_option autoImplicit false

namespace XmlDelta.Toml

def isBare (c : Char) : Bool :=
  c.isAlphanum || c = '_' || c = '-'

def readName (s : List Char) : Except Fault (String × List Char) :=
  match readString? false s with
  | some r => r
  | none =>
    let name := s.takeWhile isBare
    if name.isEmpty then .error .expectedKey else .ok (String.ofList name, s.drop name.length)

def readNames (fuel : Nat) (path : List String) (s : List Char) : Except Fault (Key × List Char) :=
  match fuel with
  | 0 => .error .expectedKey
  | n + 1 => do
    let (name, r) ← readName (skipBlanks s)
    match skipBlanks r with
    | '.' :: t => readNames n (path ++ [name]) t
    | t => return (⟨path, name⟩, t)

def readKey (s : List Char) : Except Fault (Key × List Char) :=
  readNames (s.length + 1) [] s

abbrev ValueReader := List Char → Except Fault (Value × List Char)

def readItems (value : ValueReader) (fuel : Nat) (seen : List Value) : ValueReader := fun s =>
  match fuel with
  | 0 => .error .expectedComma
  | n + 1 =>
    match skipGap s with
    | ']' :: r => .ok (.array seen.reverse, r)
    | t => do
      let (v, r) ← value t
      match skipGap r with
      | ',' :: r => readItems value n (v :: seen) r
      | ']' :: r => return (.array (v :: seen).reverse, r)
      | _ => .error .expectedComma

def readEntry (value : ValueReader) (s : List Char) : Except Fault (Key × Value × List Char) := do
  let (k, r) ← readKey s
  match r with
  | '=' :: r =>
    let (v, r) ← value (skipBlanks r)
    return (k, v, r)
  | _ => .error .expectedEquals

def readEntries (value : ValueReader) (fuel : Nat) (t : Table) : ValueReader := fun s =>
  match fuel with
  | 0 => .error .expectedComma
  | n + 1 =>
    match skipGap s with
    | '\x7d' :: r => .ok (.table .inline t.entries, r)
    | s => do
      let (k, v, r) ← readEntry value s
      let t ← t.add k v
      match skipGap r with
      | ',' :: r => readEntries value n t r
      | '\x7d' :: r => return (.table .inline t.entries, r)
      | _ => .error .expectedComma

def readNested (depth : Nat) : ValueReader := fun s =>
  match readString? true s with
  | some r => r.map fun p => (.string p.1, p.2)
  | none =>
    match depth, s with
    | d + 1, '[' :: r => readItems (readNested d) (r.length + 1) [] r
    -- Entries between braces are added as to a table of a header, which is closed at the end.
    | d + 1, '\x7b' :: r => readEntries (readNested d) (r.length + 1) (Table.empty .header) r
    | 0, '[' :: _ => .error .tooDeep
    | 0, '\x7b' :: _ => .error .tooDeep
    | _, s => (readScalar s).map fun p => (.scalar p.1, p.2)

def depthLimit : Nat := 80

def readValue : ValueReader :=
  readNested depthLimit

end XmlDelta.Toml
