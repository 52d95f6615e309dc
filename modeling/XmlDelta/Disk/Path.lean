import XmlDelta.Text.Split

set_option autoImplicit false

namespace XmlDelta.Disk

abbrev Path := String

namespace Path

def isAbsolute (p : Path) : Bool :=
  p.toList.head? == some '/'

def join (base p : Path) : Path :=
  if isAbsolute p then p
  else if base.toList.isEmpty || base.toList.getLast? == some '/' then base ++ p
  else base ++ "/" ++ p

inductive Component where
  | root
  | here
  | up
  | name (n : String)
  deriving DecidableEq

def ofParts (leading : Bool) : List (List Char) → List Component
  | [] => []
  | p :: ps =>
    let rest := ofParts false ps
    if p = [] then rest
    else if p = ['.'] then if leading then .here :: rest else rest
    else if p = ['.', '.'] then .up :: rest
    else .name (String.ofList p) :: rest

def components (p : Path) : List Component :=
  if isAbsolute p then .root :: ofParts false (Text.split '/' p.toList)
  else ofParts true (Text.split '/' p.toList)

def Component.text : Component → String
  | .root => "/"
  | .here => "."
  | .up => ".."
  | .name n => n

def ofComponents (cs : List Component) : Path :=
  cs.foldl (fun p c => join p c.text) ""

def parent (p : Path) : Option Path :=
  match components p with
  | [] => none
  | [.root] => none
  | c :: cs => some (ofComponents (c :: cs).dropLast)

def prefixes (p : Path) : List Path :=
  let cs := components p
  (List.range cs.length).map fun i => ofComponents (cs.take (i + 1))

def fileName (p : Path) : Option String :=
  match (components p).getLast? with
  | some (.name n) => some n
  | _ => none

def extensionOf (name : List Char) : Option (List Char) :=
  -- What stands after the last dot, unless the name starts with its only dot.
  let tail := name.reverse.takeWhile (· != '.')
  let before := name.reverse.drop (tail.length + 1)
  if before.isEmpty then none else some tail.reverse

def extension (p : Path) : Option String :=
  ((fileName p).bind fun n => extensionOf n.toList).map String.ofList

end Path

end XmlDelta.Disk
