import XmlDelta.Toml.Value

set_option autoImplicit false

namespace XmlDelta.Toml

inductive Statement where
  | table (k : Key)
  | nextTable (k : Key)
  | entry (k : Key) (v : Value)

def readHeader (double : Bool) (s : List Char) : Except Fault (Statement × List Char) := do
  let (k, r) ← readKey s
  match double, r with
  | false, ']' :: r => return (.table k, r)
  | true, ']' :: ']' :: r => return (.nextTable k, r)
  | _, _ => .error .expectedBracket

def readStatement (s : List Char) : Except Fault (Statement × List Char) :=
  match s with
  | '[' :: '[' :: r => readHeader true r
  | '[' :: r => readHeader false r
  | _ => do
    let (k, v, r) ← readEntry readValue s
    return (.entry k v, r)

def readStatements (fuel : Nat) (s : List Char) : Except Fault (List Statement) :=
  -- The statements of a text; `fuel` bounds their number.
  match fuel with
  | 0 => .error .expectedNewline
  | n + 1 =>
    match skipGap s with
    | [] => .ok []
    | t => do
      let (st, r) ← readStatement t
      match endLine? r with
      | none => .error .expectedNewline
      | some r => return st :: (← readStatements n r)

structure Draft where
  root : Table := Table.empty .header
  place : List String := []

namespace Draft

def step (d : Draft) : Statement → Except Fault Draft
  | .table k => (Table.openTable k d.root).map fun t => ⟨t, k.path ++ [k.name]⟩
  | .nextTable k => (Table.openNext k d.root).map fun t => ⟨t, k.path ++ [k.name]⟩
  | .entry k v =>
    (Table.change false (Table.add k v) d.place d.root).map fun t => { d with root := t }

end Draft

def build (sts : List Statement) : Except Fault Table :=
  (sts.foldlM Draft.step {}).map Draft.root

def dropMark : List Char → List Char
  | [] => []
  | c :: r => if c.toNat = 0xFEFF then r else c :: r

def parse (text : String) : Except Fault Table := do
  let s := dropMark text.toList
  build (← readStatements (s.length + 1) s)

end XmlDelta.Toml
