import XmlDelta.Document.Render
import XmlDelta.Proofs.Document.Alike
import XmlDelta.Proofs.Document.Grammar
import XmlDelta.Proofs.Text.Blank

set_option autoImplicit false

namespace XmlDelta.Document

open XmlDelta.Text (trim isBlank isBlankText)

def spell (ls : List String) : List Char :=
  ls.flatMap fun l => '\n' :: l.toList

theorem toList_intercalate_lines (l : String) (ls : List String) :
    (String.intercalate "\n" (l :: ls)).toList = l.toList ++ spell ls := by
  induction ls generalizing l with
  | nil => simp [spell]
  | cons m ls ih =>
    rw [String.intercalate_cons_cons, String.toList_append, String.toList_append, ih]
    simp [spell]

def lineBreak (n : Nat) : String :=
  "\n" ++ tabs n

theorem isBlankText_tabs (n : Nat) : isBlankText (tabs n) = true := by
  have tab : isBlank '\t' = true := rfl
  simp [isBlankText, tabs, tab]

theorem isBlankText_lineBreak (n : Nat) : isBlankText (lineBreak n) = true := by
  have newline : isBlank '\n' = true := rfl
  have indentation := isBlankText_tabs n
  simp only [isBlankText] at indentation
  simp [isBlankText, lineBreak, newline, indentation]

def textLead (n : Nat) (text : String) : String :=
  if text = "" then "" else lineBreak (n + 1) ++ text

namespace Element

def markup (n : Nat) (e : Element) : List Char :=
  '<' :: (e.tag.toList ++ (attributesText e.attributes).toList ++
    '>' :: spell (textLines n e.trimmedText ++ e.children.flatMap (lines (n + 1)) ++
      [closingLine n e.tag]))

theorem spell_lines (n : Nat) (e : Element) :
    spell (e.lines n) = (lineBreak n).toList ++ e.markup n := by
  simp [lines_eq, spell, lineBreak, openingLine, markup]

theorem toList_render (n : Nat) (e : Element) :
    (e.render n).toList = (tabs n).toList ++ e.markup n := by
  rw [render, lines_eq, List.cons_append, List.cons_append, toList_intercalate_lines]
  simp [openingLine, markup]

theorem spell_textLines (n : Nat) (text : String) :
    spell (textLines n text) = (textLead n text).toList := by
  by_cases empty : text = ""
  · simp [textLines, textLead, empty, spell]
  · simp [textLines, textLead, empty, spell, lineBreak]

theorem markup_append (n : Nat) (e : Element) (rest : List Char) :
    e.markup n ++ rest = '<' :: (e.tag.toList ++ (attributesText e.attributes).toList ++
      '>' :: ((textLead n e.trimmedText).toList ++
        spell (e.children.flatMap (lines (n + 1))) ++ (lineBreak n).toList ++
          '<' :: '/' :: (e.tag.toList ++ '>' :: rest))) := by
  rw [← spell_textLines]
  simp [markup, spell, closingLine, lineBreak]

theorem spell_lines_cons (n : Nat) (c : Element) (cs : List Element) :
    spell ((c :: cs).flatMap (lines n)) =
      (lineBreak n).toList ++ c.markup n ++ spell (cs.flatMap (lines n)) := by
  rw [← spell_lines, List.flatMap_cons, spell, List.flatMap_append]
  rfl

theorem lines_eq_of_alike {e f : Element} (alike : Alike Eq e f) (n : Nat) :
    f.lines n = e.lines n := by
  refine alike.induction (motive := fun e f => ∀ n, f.lines n = e.lines n) ?_ n
  intro e f alike children n
  have below : f.children.flatMap (lines (n + 1)) = e.children.flatMap (lines (n + 1)) := by
    generalize e.children = cs, f.children = ds at children
    induction children with
    | nil => rfl
    | cons first _ rest => rw [List.flatMap_cons, List.flatMap_cons, first, rest]
  rw [lines_eq, lines_eq, alike.tag_eq, alike.attributes_same, alike.trimmedText_eq, below]

mutual

def layout (n : Nat) : Element → Piece
  | ⟨tag, as, text, cs⟩ =>
    .paired ⟨tag, as⟩ (layoutBelow n (textLead n (trimmedText ⟨tag, as, text, cs⟩)) cs)

def layoutBelow (n : Nat) (before : String) : List Element → List Piece
  | [] => [.text (before ++ lineBreak n)]
  | c :: cs => .text (before ++ lineBreak (n + 1)) :: layout (n + 1) c :: layoutBelow n "" cs

end

def piecesBelow (n : Nat) (e : Element) : List Piece :=
  layoutBelow n (textLead n e.trimmedText) e.children

theorem layout_eq (n : Nat) (e : Element) :
    e.layout n = .paired ⟨e.tag, e.attributes⟩ (e.piecesBelow n) := by
  cases e
  rfl

theorem trim_trimmedText (e : Element) : trim e.trimmedText = e.trimmedText := by
  unfold trimmedText
  cases e.text with
  | none => rfl
  | some s => exact congrArg String.ofList (by rw [Text.toList_trim, Text.trimChars_trimChars])

theorem trim_textLead (n k : Nat) (e : Element) :
    trim (textLead n e.trimmedText ++ lineBreak k) = e.trimmedText := by
  have behind := isBlankText_lineBreak k
  have before := isBlankText_lineBreak (n + 1)
  unfold isBlankText at behind before
  by_cases empty : e.trimmedText = ""
  · rw [textLead, if_pos empty, empty, trim, String.toList_append, String.toList_empty,
      List.nil_append, Text.trimChars_eq_nil behind, String.ofList_nil]
  · rw [textLead, if_neg empty, trim, String.toList_append, String.toList_append,
      Text.trimChars_append_right _ behind, Text.trimChars_append_left before]
    exact e.trim_trimmedText

theorem exists_leading_piecesBelow (n : Nat) (e : Element) :
    ∃ k, Piece.leading (e.piecesBelow n) = some (textLead n e.trimmedText ++ lineBreak k) := by
  unfold piecesBelow
  cases e.children with
  | nil => exact ⟨n, by simp [layoutBelow, Piece.leading, Piece.leadingData, Piece.data?,
      Piece.isNode]⟩
  | cons c cs => exact ⟨n + 1, by simp [layoutBelow, layout_eq, Piece.leading, Piece.leadingData,
      Piece.data?, Piece.isNode]⟩

mutual

theorem element?_layout (n : Nat) (e : Element) :
    ∃ f, (e.layout n).element? = some f ∧ Alike Eq e f := by
  cases e with
  | mk tag as text cs =>
    let e : Element := ⟨tag, as, text, cs⟩
    have children := elements_layoutBelow n (textLead n e.trimmedText) cs
    obtain ⟨k, leading⟩ := e.exists_leading_piecesBelow n
    have same : e.trimmedText = trim (textLead n e.trimmedText ++ lineBreak k) :=
      (e.trim_textLead n k).symm
    refine ⟨⟨tag, as, some (textLead n e.trimmedText ++ lineBreak k),
      Piece.elements (e.piecesBelow n)⟩, ?_, .intro rfl rfl same children⟩
    rw [layout_eq, Piece.element?, leading]

theorem elements_layoutBelow (n : Nat) (before : String) (cs : List Element) :
    List.Forall₂ (Alike Eq) cs (Piece.elements (layoutBelow n before cs)) := by
  cases cs with
  | nil => exact .nil
  | cons c cs =>
    obtain ⟨d, denoted, alike⟩ := element?_layout (n + 1) c
    have rest := elements_layoutBelow n "" cs
    rw [layoutBelow, Piece.elements, Piece.elements, denoted]
    exact .cons alike rest

end

end Element

end XmlDelta.Document
