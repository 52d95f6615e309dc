import XmlDelta.Document.Render
import XmlDelta.Proofs.Document.Alike
import XmlDelta.Proofs.Text.Blank
import XmlDelta.Proofs.Text.Split

set_option autoImplicit false

namespace XmlDelta.Document

open XmlDelta.Text (isBlankText split)

def linesOf (s : String) : List String :=
  (split '\n' s.toList).map String.ofList

def indented (m : Nat) (s : String) : String :=
  String.intercalate "\n" ((linesOf s).map (tabs m ++ ·))

def punctuation : List Char := ['\t', '<', '>', '/', ' ', '=', '"']

namespace Element

/-- The character is in nothing that is shown of the element itself. -/
structure Lacks (c : Char) (e : Element) : Prop where
  tag : c ∉ e.tag.toList
  attributes : ∀ a ∈ e.attributes.entries, c ∉ a.1.toList ∧ c ∉ a.2.toList
  text : c ∉ e.trimmedText.toList

def FreeOf (c : Char) (e : Element) : Prop :=
  ∀ x ∈ e.nodes, x.Lacks c

instance (c : Char) (e : Element) : Decidable (e.Lacks c) :=
  decidable_of_iff (c ∉ e.tag.toList ∧
      (∀ a ∈ e.attributes.entries, c ∉ a.1.toList ∧ c ∉ a.2.toList) ∧ c ∉ e.trimmedText.toList)
    ⟨fun ⟨tag, attributes, text⟩ => ⟨tag, attributes, text⟩,
      fun lacks => ⟨lacks.tag, lacks.attributes, lacks.text⟩⟩

instance (c : Char) (e : Element) : Decidable (e.FreeOf c) :=
  inferInstanceAs (Decidable (∀ x ∈ e.nodes, x.Lacks c))

def hasText (e : Element) : Bool :=
  e.text.any fun s => !isBlankText s

def openingTag (e : Element) : String :=
  "<" ++ e.tag ++ attributesText e.attributes ++ ">"

def closingTag (e : Element) : String :=
  "</" ++ e.tag ++ ">"

mutual

def nodesAt (depth : Nat) : Element → List (Nat × Element)
  | ⟨t, a, x, cs⟩ => (depth, ⟨t, a, x, cs⟩) :: nodesAtAll (depth + 1) cs

def nodesAtAll (depth : Nat) : List Element → List (Nat × Element)
  | [] => []
  | c :: cs => nodesAt depth c ++ nodesAtAll depth cs

end

/-- Lines read from the top, below the elements that are still open, the innermost first. A line has
`n` tabs and one for each of these elements; a closing tag closes the innermost. What is opened is
kept with the number of elements above it. -/
inductive Nested (n : Nat) : List Element → List String → List (Nat × Element) → Prop where
  | done : Nested n [] [] []
  | opening {above : List Element} {e : Element} {ls : List String} {xs : List (Nat × Element)}
      (rest : Nested n (e :: above) ls xs) :
      Nested n above ((tabs (n + above.length) ++ e.openingTag) :: ls) ((above.length, e) :: xs)
  | text {above : List Element} {e : Element} {ls : List String} {xs : List (Nat × Element)}
      (shown : e.hasText = true) (rest : Nested n (e :: above) ls xs) :
      Nested n (e :: above) ((tabs (n + above.length + 1) ++ e.trimmedText) :: ls) xs
  | closing {above : List Element} {e : Element} {ls : List String} {xs : List (Nat × Element)}
      (rest : Nested n above ls xs) :
      Nested n (e :: above) ((tabs (n + above.length) ++ e.closingTag) :: ls) xs

theorem nodesAtAll_eq_flatMap (depth : Nat) (cs : List Element) :
    nodesAtAll depth cs = cs.flatMap (nodesAt depth) := by
  induction cs with
  | nil => simp [nodesAtAll]
  | cons c cs ih => simp [nodesAtAll, ih]

theorem nodesAt_eq (depth : Nat) (e : Element) :
    e.nodesAt depth = (depth, e) :: e.children.flatMap (nodesAt (depth + 1)) := by
  cases e with
  | mk t a x cs => simp [nodesAt, nodesAtAll_eq_flatMap]

theorem map_snd_nodesAt (depth : Nat) (e : Element) : (e.nodesAt depth).map Prod.snd = e.nodes := by
  induction e using Element.induction generalizing depth with
  | node e ih =>
    rw [nodesAt_eq, nodes_eq, List.map_cons, List.map_flatMap]
    congr 1
    exact List.flatMap_congr fun c child => ih c child (depth + 1)

theorem FreeOf.root {c : Char} {e : Element} (free : e.FreeOf c) : e.Lacks c :=
  free e (by simp [nodes_eq e])

theorem FreeOf.child {c : Char} {e x : Element} (free : e.FreeOf c) (child : x ∈ e.children) :
    x.FreeOf c := by
  intro y inside
  refine free y ?_
  rw [nodes_eq e]
  exact List.mem_cons_of_mem _ (List.mem_flatMap.mpr ⟨x, child, inside⟩)

theorem trimmedText_eq_empty_iff (e : Element) : e.trimmedText = "" ↔ e.hasText = false := by
  unfold trimmedText hasText
  cases e.text with
  | none => simp
  | some s =>
    rw [← String.toList_inj, Text.toList_trim, String.toList_empty, Text.trimChars_eq_nil_iff]
    simp [isBlankText]

theorem textLines_eq (n : Nat) (e : Element) :
    textLines n e.trimmedText = if e.hasText then [tabs (n + 1) ++ e.trimmedText] else [] := by
  cases shown : e.hasText with
  | true =>
    have some : e.trimmedText ≠ "" := by simp [trimmedText_eq_empty_iff, shown]
    rw [textLines, if_neg some, if_pos rfl]
  | false => rw [textLines, if_pos (e.trimmedText_eq_empty_iff.mpr shown), if_neg Bool.false_ne_true]

theorem lines_eq_tags (n : Nat) (e : Element) :
    e.lines n = (tabs n ++ e.openingTag) ::
      ((if e.hasText then [tabs (n + 1) ++ e.trimmedText] else []) ++
        (e.children.flatMap (lines (n + 1)) ++ [tabs n ++ e.closingTag])) := by
  rw [lines_eq, textLines_eq]
  simp [openingLine, openingTag, closingLine, closingTag, String.append_assoc]

theorem tabs_add (n m : Nat) : tabs (n + m) = tabs m ++ tabs n := by
  rw [tabs, tabs, tabs, ← String.ofList_append, List.replicate_append_replicate, Nat.add_comm]

theorem lines_add (n m : Nat) (e : Element) : e.lines (n + m) = (e.lines n).map (tabs m ++ ·) := by
  induction e using Element.induction generalizing n with
  | node e ih =>
    have children : e.children.flatMap (lines (n + m + 1)) =
        (e.children.flatMap (lines (n + 1))).map (tabs m ++ ·) := by
      rw [List.map_flatMap, Nat.add_right_comm]
      exact List.flatMap_congr fun c child => ih c child (n + 1)
    rw [lines_eq_tags, lines_eq_tags, children, Nat.add_right_comm n m 1]
    cases e.hasText <;> simp [tabs_add n m, tabs_add (n + 1) m, String.append_assoc]

theorem length_lines (n : Nat) (e : Element) :
    (e.lines n).length = 2 * e.nodes.length + e.nodes.countP hasText := by
  induction e using Element.induction generalizing n with
  | node e ih =>
    have children : (e.children.flatMap (lines (n + 1))).length =
        2 * (e.children.flatMap nodes).length + (e.children.flatMap nodes).countP hasText := by
      generalize e.children = cs at ih
      induction cs with
      | nil => rfl
      | cons c cs rest =>
        have first := ih c List.mem_cons_self (n + 1)
        have rest := rest fun d later => ih d (List.mem_cons_of_mem _ later)
        simp only [List.flatMap_cons, List.length_append, List.countP_append]
        omega
    rw [lines_eq_tags, nodes_eq, List.countP_cons]
    cases e.hasText
    · simp only [Bool.false_eq_true, if_false, List.nil_append, List.length_cons,
        List.length_append, List.length_nil, children]
      omega
    · simp only [if_true, List.length_cons, List.length_append, List.length_nil, children]
      omega

theorem nested_lines {n : Nat} {above : List Element} {ls : List String}
    {xs : List (Nat × Element)} (rest : Nested n above ls xs) (e : Element) :
    Nested n above (e.lines (n + above.length) ++ ls) (e.nodesAt above.length ++ xs) := by
  induction e using Element.induction generalizing above ls xs with
  | node e ih =>
    -- What is below the element is read while it is open, from the last line backwards.
    have children (cs : List Element) (inside : ∀ c ∈ cs, c ∈ e.children) {ls : List String}
        {xs : List (Nat × Element)} (rest : Nested n (e :: above) ls xs) :
        Nested n (e :: above) (cs.flatMap (lines (n + above.length + 1)) ++ ls)
          (cs.flatMap (nodesAt (above.length + 1)) ++ xs) := by
      induction cs with
      | nil => exact rest
      | cons c cs later =>
        have behind := later fun d other => inside d (List.mem_cons_of_mem _ other)
        have first := ih c (inside c List.mem_cons_self) behind
        simpa only [List.flatMap_cons, List.append_assoc, List.length_cons, ← Nat.add_assoc] using first
    have below := children e.children (fun _ child => child) (.closing rest)
    rw [lines_eq_tags, nodesAt_eq]
    cases shown : e.hasText with
    | true => simpa using Nested.opening (.text shown below)
    | false => simpa using Nested.opening below

section Characters

variable {c : Char} (other : c ∉ punctuation)

include other

theorem not_mem_tabs (n : Nat) : c ∉ (tabs n).toList := by
  intro inside
  have tab : c = '\t' := (List.mem_replicate.mp (by simpa [tabs] using inside)).2
  exact other (by simp [tab, punctuation])

theorem Lacks.not_mem_openingTag {e : Element} (lacks : e.Lacks c) : c ∉ e.openingTag.toList := by
  simp only [punctuation, List.mem_cons, List.not_mem_nil, or_false, not_or] at other
  have attributes : c ∉ (attributesText e.attributes).toList := by
    rw [attributesText, String.toList_join, List.flatMap_map, List.mem_flatMap]
    rintro ⟨a, inside, shown⟩
    have own := lacks.attributes a inside
    simp [attributeText, own, other] at shown
  simp [openingTag, lacks.tag, attributes, other]

theorem Lacks.not_mem_closingTag {e : Element} (lacks : e.Lacks c) : c ∉ e.closingTag.toList := by
  simp only [punctuation, List.mem_cons, List.not_mem_nil, or_false, not_or] at other
  simp [closingTag, lacks.tag, other]

theorem not_mem_of_mem_lines {e : Element} (free : e.FreeOf c) (n : Nat) :
    ∀ l ∈ e.lines n, c ∉ l.toList := by
  induction e using Element.induction generalizing n with
  | node e ih =>
    have tab := not_mem_tabs other
    intro l inside
    rw [lines_eq_tags] at inside
    simp only [List.mem_cons, List.mem_append, List.mem_flatMap, List.mem_ite_nil_right,
      List.not_mem_nil, or_false] at inside
    obtain rfl | ⟨-, rfl⟩ | ⟨x, child, inside⟩ | rfl := inside
    · simp [tab n, free.root.not_mem_openingTag other]
    · simp [tab (n + 1), free.root.text]
    · exact ih x child (free.child child) (n + 1) l inside
    · simp [tab n, free.root.not_mem_closingTag other]

end Characters

theorem linesOf_render {e : Element} (free : e.FreeOf '\n') (n : Nat) :
    linesOf (e.render n) = e.lines n := by
  have unbroken := not_mem_of_mem_lines (by decide) free n
  rw [linesOf, render]
  rw [lines_eq_tags] at unbroken ⊢
  exact Text.map_ofList_split_intercalate (by decide) unbroken

def misleading : Element :=
  { tag := "a"
    attributes := ⟨[("k", "</a>")], by decide⟩
    text := some "\n <b>\n"
    children :=
      [{ tag := "b", text := some " \n" },
        { tag := "a", children := [{ tag := "c", text := some "</a>" }] }] }

end Element

end XmlDelta.Document
