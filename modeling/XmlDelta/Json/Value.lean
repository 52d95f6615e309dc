import XmlDelta.Json.Text

set_option autoImplicit false

namespace XmlDelta.Json

inductive Value where
  | bool (b : Bool)
  | number (n : Nat)
  | string (s : String)
  | list (vs : List Value)
  | object (fields : List (String × Value))

def spaces (n : Nat) : List Char :=
  List.replicate n ' '

def bracketed (opening closing : Char) (indent depth : Nat) (members : List (List Char)) :
    List Char :=
  match members with
  | [] => [opening, closing]
  | _ =>
    let lead := '\n' :: spaces (indent * (depth + 1))
    opening :: ((members.map (lead ++ ·)).intersperse [',']).flatten ++
      '\n' :: spaces (indent * depth) ++ [closing]

namespace Value

mutual

def chars (indent depth : Nat) : Value → List Char
  | bool b => if b then ['t', 'r', 'u', 'e'] else ['f', 'a', 'l', 's', 'e']
  | number n => (Nat.repr n).toList
  | string s => stringText s
  | list vs => bracketed '[' ']' indent depth (charsOfAll indent (depth + 1) vs)
  | object fs => bracketed '\x7b' '\x7d' indent depth (charsOfFields indent (depth + 1) fs)

def charsOfAll (indent depth : Nat) : List Value → List (List Char)
  | [] => []
  | v :: vs => chars indent depth v :: charsOfAll indent depth vs

def charsOfFields (indent depth : Nat) : List (String × Value) → List (List Char)
  | [] => []
  | (k, v) :: fs =>
    (stringText k ++ [':', ' '] ++ chars indent depth v) :: charsOfFields indent depth fs

end

def text (indent : Nat) (v : Value) : String :=
  String.ofList (v.chars indent 0)

end Value

end XmlDelta.Json
