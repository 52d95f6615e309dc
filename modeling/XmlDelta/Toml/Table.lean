import XmlDelta.Keyed
import XmlDelta.Toml.Scalar

set_option autoImplicit false

namespace XmlDelta.Toml

inductive Origin where
  | header
  | implied
  | dotted
  | inline
  deriving DecidableEq

inductive Value where
  | string (s : String)
  | scalar (v : Scalar)
  | array (vs : List Value)
  | table (origin : Origin) (entries : List (String × Value))
  | tables (ts : List (List (String × Value)))

structure Table where
  origin : Origin
  entries : Keyed Value

structure Key where
  path : List String
  name : String
  deriving DecidableEq

namespace Table

def empty (o : Origin) : Table :=
  ⟨o, []⟩

def value (t : Table) : Value :=
  .table t.origin t.entries

def set (k : String) (v : Value) (t : Table) : Table :=
  { t with entries := Keyed.set k v t.entries }

def admits (viaKey : Bool) : Origin → Bool
  | .inline => false
  | .header => !viaKey
  | _ => true

def originOf (viaKey : Bool) : Origin :=
  if viaKey then .dotted else .implied

def change (viaKey : Bool) (f : Table → Except Fault Table) :
    List String → Table → Except Fault Table
  | [], t => f t
  | k :: ks, t =>
    match Keyed.get? k t.entries with
    | none => do
      let sub ← change viaKey f ks (empty (originOf viaKey))
      return t.set k sub.value
    | some (.table o es) =>
      if admits viaKey o then do
        let sub ← change viaKey f ks ⟨o, es⟩
        return t.set k sub.value
      else .error (.duplicateKey k)
    -- A path through tables of one header goes on in the last of them.
    | some (.tables ts) => do
      let sub ← change viaKey f ks ⟨.header, ts.getLast?.getD []⟩
      return t.set k (.tables (ts.dropLast ++ [sub.entries]))
    | some _ => .error (.notATable k)

def add (k : Key) (v : Value) (t : Table) : Except Fault Table :=
  let insert (u : Table) : Except Fault Table :=
    -- A path ends in a table that dotted keys made, and a plain key stays out of such tables.
    if u.origin = .dotted ↔ k.path = [] then .error (.duplicateKey k.name)
    else
      match Keyed.get? k.name u.entries with
      | some _ => .error (.duplicateKey k.name)
      | none => .ok (u.set k.name v)
  change true insert k.path t

def openTable (k : Key) (t : Table) : Except Fault Table :=
  let insert (u : Table) : Except Fault Table :=
    match Keyed.get? k.name u.entries with
    | none => .ok (u.set k.name (empty .header).value)
    | some (.table .implied es) => .ok (u.set k.name (.table .header es))
    | some _ => .error (.duplicateKey k.name)
  change false insert k.path t

def openNext (k : Key) (t : Table) : Except Fault Table :=
  let insert (u : Table) : Except Fault Table :=
    match Keyed.get? k.name u.entries with
    | none => .ok (u.set k.name (.tables [[]]))
    | some (.tables ts) => .ok (u.set k.name (.tables (ts ++ [[]])))
    | some _ => .error (.duplicateKey k.name)
  change false insert k.path t

end Table

end XmlDelta.Toml
