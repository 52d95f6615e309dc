import XmlDelta.Proofs.Json.Reader

set_option autoImplicit false

namespace XmlDelta.Json

open XmlDelta.Text (hexDigit isDigit)

def Printable (cs : List Char) : Prop :=
  ∀ c ∈ cs, c = '\n' ∨ 32 ≤ c.toNat

@[simp]
theorem printable_append {cs ds : List Char} : Printable (cs ++ ds) ↔ Printable cs ∧ Printable ds :=
  List.forall_mem_append

@[simp]
theorem printable_cons {c : Char} {cs : List Char} :
    Printable (c :: cs) ↔ (c = '\n' ∨ 32 ≤ c.toNat) ∧ Printable cs :=
  List.forall_mem_cons

@[simp]
theorem printable_nil : Printable [] :=
  List.forall_mem_nil _

theorem printable_hexDigit : ∀ n < 16, 32 ≤ (hexDigit n).toNat := by
  decide

theorem printable_escapeChar (c : Char) : Printable (escapeChar c) := by
  have high := printable_hexDigit (c.toNat / 16)
  have low := printable_hexDigit (c.toNat % 16) (Nat.mod_lt _ (by decide))
  unfold escapeChar
  iterate 7
    split
    · simp [Char.toNat]
  split
  · rename_i control
    simp [high (by omega), low]
  · rename_i solid
    simpa using .inr (Nat.le_of_not_lt solid)

theorem printable_stringText (s : String) : Printable (stringText s) := by
  have escaped : Printable (escape s.toList) := by
    intro c inside
    obtain ⟨d, -, inside⟩ := List.mem_flatMap.mp inside
    exact printable_escapeChar d c inside
  simp [stringText, escaped]

theorem printable_spaces (n : Nat) : Printable (spaces n) := by
  intro c inside
  rw [(List.mem_replicate.mp inside).2]
  decide

theorem printable_bracketed {opening closing : Char} (front : 32 ≤ opening.toNat)
    (back : 32 ≤ closing.toNat) (indent depth : Nat) {ms : List (List Char)}
    (members : ∀ m ∈ ms, Printable m) : Printable (bracketed opening closing indent depth ms) := by
  cases ms with
  | nil => simp [bracketed, front, back]
  | cons m ms =>
    have more : Printable (moreMembers ('\n' :: spaces (indent * (depth + 1))) ms) := by
      intro c inside
      obtain ⟨n, later, inside⟩ := List.mem_flatMap.mp inside
      have member := members n (List.mem_cons_of_mem _ later)
      have line : Printable (',' :: (('\n' :: spaces (indent * (depth + 1))) ++ n)) := by
        simp [printable_spaces, member]
      exact line c inside
    rw [bracketed_cons]
    simp [front, back, more, printable_spaces, members m List.mem_cons_self]

namespace Value

mutual

theorem printable_chars (indent depth : Nat) (v : Value) : Printable (v.chars indent depth) := by
  cases v with
  | bool b => cases b <;> simp [chars]
  | number n =>
    intro c inside
    have decimal := isDigit_of_mem_repr inside
    have least : '0'.toNat ≤ c.toNat := by
      simp only [isDigit, Bool.and_eq_true, decide_eq_true_eq] at decimal
      exact decimal.1
    exact .inr (by simp at least; omega)
  | string s => exact printable_stringText s
  | list vs => exact printable_bracketed (by decide) (by decide) _ _ (printable_charsOfAll _ _ vs)
  | object fs =>
    exact printable_bracketed (by decide) (by decide) _ _ (printable_charsOfFields _ _ fs)

theorem printable_charsOfAll (indent depth : Nat) (vs : List Value) :
    ∀ m ∈ charsOfAll indent depth vs, Printable m := by
  cases vs with
  | nil => exact List.forall_mem_nil _
  | cons v vs =>
    exact List.forall_mem_cons.mpr
      ⟨printable_chars indent depth v, printable_charsOfAll indent depth vs⟩

theorem printable_charsOfFields (indent depth : Nat) (fs : List (String × Value)) :
    ∀ m ∈ charsOfFields indent depth fs, Printable m := by
  match fs with
  | [] => exact List.forall_mem_nil _
  | (k, v) :: fs =>
    refine List.forall_mem_cons.mpr ⟨?_, printable_charsOfFields indent depth fs⟩
    simp [printable_stringText, printable_chars indent depth v]

end

theorem printable_text (indent : Nat) (v : Value) : Printable (v.text indent).toList := by
  rw [text, String.toList_ofList]
  exact v.printable_chars indent 0

end Value

end XmlDelta.Json
