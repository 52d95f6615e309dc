import XmlDelta.Document.Element

set_option autoImplicit false

namespace XmlDelta.Document

def tabs (n : Nat) : String :=
  String.ofList (List.replicate n '\t')

def attributeText (a : String × String) : String :=
  " " ++ a.1 ++ "=\"" ++ a.2 ++ "\""

def attributesText (as : Attributes) : String :=
  String.join (as.entries.map attributeText)

def openingLine (indent : Nat) (tag : String) (as : Attributes) : String :=
  tabs indent ++ "<" ++ tag ++ attributesText as ++ ">"

def textLines (indent : Nat) (text : String) : List String :=
  if text = "" then [] else [tabs (indent + 1) ++ text]

def closingLine (indent : Nat) (tag : String) : String :=
  tabs indent ++ "</" ++ tag ++ ">"

namespace Element

mutual

def lines (indent : Nat) : Element → List String
  | ⟨tag, as, text, cs⟩ =>
    openingLine indent tag as :: textLines indent (trimmedText ⟨tag, as, text, cs⟩) ++
      linesOfAll (indent + 1) cs ++ [closingLine indent tag]

def linesOfAll (indent : Nat) : List Element → List String
  | [] => []
  | c :: cs => lines indent c ++ linesOfAll indent cs

end

theorem linesOfAll_eq_flatMap (indent : Nat) (cs : List Element) :
    linesOfAll indent cs = cs.flatMap (lines indent) := by
  induction cs with
  | nil => simp [linesOfAll]
  | cons c cs ih => simp [linesOfAll, ih]

theorem lines_eq (indent : Nat) (e : Element) :
    e.lines indent = openingLine indent e.tag e.attributes :: textLines indent e.trimmedText ++
      e.children.flatMap (lines (indent + 1)) ++ [closingLine indent e.tag] := by
  cases e with
  | mk t a x cs => simp [lines, linesOfAll_eq_flatMap]

def render (indent : Nat) (e : Element) : String :=
  String.intercalate "\n" (e.lines indent)

end Element

end XmlDelta.Document
