import XmlDelta.Disk.IoError
import XmlDelta.Disk.Path
import XmlDelta.Keyed
import XmlDelta.Text.Utf8

set_option autoImplicit false

namespace XmlDelta.Disk

inductive Node where
  | file (content : List UInt8)
  | directory (entries : List (String × Node))

namespace Node

def isDirectory : Node → Bool
  | file _ => false
  | directory _ => true

def entries : Node → Keyed Node
  | file _ => []
  | directory es => es

def child? (n : Node) (name : String) : Option Node :=
  Keyed.get? name n.entries

def at? (n : Node) : List String → Option Node
  | [] => some n
  | c :: cs => (n.child? c).bind (·.at? cs)

def put (new : Node) : List String → Node → Node
  | [], _ => new
  | c :: cs, n =>
    let sub := put new cs ((n.child? c).getD (.directory []))
    .directory (Keyed.set c sub n.entries)

def removeEntry (name : String) (n : Node) : Node :=
  .directory (n.entries.filter fun e => e.1 != name)

end Node

structure Tree where
  root : Node := .directory []
  here : List String := []

namespace Tree

abbrev Place := List String

def node? (t : Tree) (p : Place) : Option Node :=
  t.root.at? p

def longestName : Nat := 255
def longestPath : Nat := 4096

def byteCount (cs : List Char) : Nat :=
  (Text.Utf8.encode cs).length

def enter (t : Tree) (p : Place) (part : List Char) : Except IoError Place :=
  match t.node? p with
  | some (.directory es) =>
    if part = [] ∨ part = ['.'] then .ok p
    else if part = ['.', '.'] then .ok p.dropLast
    else if longestName < byteCount part then .error .nameTooLong
    else if (Keyed.get? (String.ofList part) es).isSome then .ok (p ++ [String.ofList part])
    else .error .absent
  | some (.file _) => .error .notDirectory
  | none => .error .absent

def walk (t : Tree) (p : Place) : List (List Char) → Except IoError Place
  | [] => .ok p
  | c :: cs => t.enter p c >>= fun p => t.walk p cs

def checkPath (p : Path) : Except IoError Unit :=
  if p.toList.contains (Char.ofNat 0) then .error .nulInPath
  else if p.toList.isEmpty then .error .absent
  else if longestPath ≤ byteCount p.toList then .error .nameTooLong
  else .ok ()

def origin (t : Tree) (p : Path) : Place :=
  if Path.isAbsolute p then [] else t.here

def resolve (t : Tree) (p : Path) : Except IoError Place := do
  checkPath p
  t.walk (t.origin p) (Text.split '/' p.toList)

def lookup (t : Tree) (p : Path) : Except IoError Node := do
  let place ← t.resolve p
  match t.node? place with
  | some n => .ok n
  | none => .error .absent

def tryExists (t : Tree) (p : Path) : Except IoError Bool :=
  match t.lookup p with
  | .ok _ => .ok true
  | .error e => if e.kind = .notFound then .ok false else .error e

def pathExists (t : Tree) (p : Path) : Bool :=
  (t.lookup p).isOk

def isDirectory (t : Tree) (p : Path) : Bool :=
  match t.lookup p with
  | .ok n => n.isDirectory
  | .error _ => false

def read (t : Tree) (p : Path) : Except IoError (List UInt8) := do
  match ← t.lookup p with
  | .file b => .ok b
  | .directory _ => .error .isDirectory

def readText (t : Tree) (p : Path) : Except IoError String := do
  match Text.Utf8.decode (← t.read p) with
  | some cs => .ok (String.ofList cs)
  | none => .error .notUtf8

structure Target where
  above : List (List Char)
  last : List Char
  slashed : Bool

def target (p : Path) : Target :=
  let parts := (Text.split '/' p.toList).reverse
  let bare := parts.dropWhile (· == [])
  match bare with
  | [] => ⟨[], [], true⟩
  | l :: above => ⟨above.reverse, l, bare.length < parts.length⟩

def Target.isDots (g : Target) : Bool :=
  g.last = [] || g.last = ['.'] || g.last = ['.', '.']

def holder (t : Tree) (p : Path) (g : Target) : Except IoError (Place × Keyed Node) := do
  checkPath p
  let place ← t.walk (t.origin p) g.above
  match t.node? place with
  | some (.directory es) => .ok (place, es)
  | some (.file _) => .error .notDirectory
  | none => .error .absent

def Target.name (g : Target) : Except IoError String :=
  if longestName < byteCount g.last then .error .nameTooLong else .ok (String.ofList g.last)

def putAt (t : Tree) (p : Place) (n : Node) : Tree :=
  { t with root := Node.put n p t.root }

def write (t : Tree) (p : Path) (content : List UInt8) : Except IoError Tree := do
  let g := target p
  let (place, es) ← t.holder p g
  if g.isDots || g.slashed then .error .isDirectory
  else
    let name ← g.name
    match Keyed.get? name es with
    | some (.directory _) => .error .isDirectory
    | _ => .ok (t.putAt (place ++ [name]) (.file content))

def makeDirectory (t : Tree) (p : Path) : Except IoError Tree := do
  let g := target p
  let (place, es) ← t.holder p g
  if g.isDots then .error .occupied
  else
    let name ← g.name
    match Keyed.get? name es with
    | some _ => .error .occupied
    | none => .ok (t.putAt (place ++ [name]) (.directory []))

structure Attempt where
  tree : Tree
  error? : Option IoError := none

def orPresent (t : Tree) (p : Path) (r : Except IoError Tree) : Attempt :=
  match r with
  | .ok t' => ⟨t', none⟩
  | .error e => ⟨t, if t.isDirectory p then none else some e⟩

def wholeTreeFailed : IoError := .fixed .other "failed to create whole tree"

def makeDirectoriesUpTo (depth : Nat) (t : Tree) (p : Path) : Attempt :=
  -- Creates a directory and what is missing above it; `depth` bounds the number of parents.
  -- the empty path stands for the directory one is in.
  if p.toList.isEmpty then ⟨t, none⟩
  else
    match t.makeDirectory p with
    | .ok t' => ⟨t', none⟩
    | .error e =>
      if e.kind = .notFound then
        match depth, Path.parent p with
        | d + 1, some above =>
          let a := makeDirectoriesUpTo d t above
          match a.error? with
          | none => a.tree.orPresent p (a.tree.makeDirectory p)
          | some _ => a
        | _, _ => ⟨t, some wholeTreeFailed⟩
      else t.orPresent p (.error e)

def makeDirectories (t : Tree) (p : Path) : Attempt :=
  -- Directories that were made before a failure stay.
  makeDirectoriesUpTo (Path.components p).length t p

def remove? (t : Tree) (p : Path) : Option Tree :=
  match t.resolve p with
  | .error _ => none
  | .ok place =>
    match place.getLast?, t.node? place.dropLast with
    | some name, some above => some (t.putAt place.dropLast (above.removeEntry name))
    | _, _ => none

end Tree

end XmlDelta.Disk
