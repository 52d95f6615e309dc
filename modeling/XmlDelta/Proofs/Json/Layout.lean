import XmlDelta.Json.Value
import XmlDelta.Proofs.Json.Text

set_option autoImplicit false

namespace XmlDelta.Json

theorem lineStart_isSpace (n : Nat) : ('\n' :: spaces n).all isSpace = true := by
  simp [spaces, isSpace]

def moreMembers (lead : List Char) (members : List (List Char)) : List Char :=
  members.flatMap fun m => ',' :: (lead ++ m)

theorem flatten_intersperse (lead m : List Char) (ms : List (List Char)) :
    (((m :: ms).map (lead ++ ·)).intersperse [',']).flatten =
      lead ++ m ++ moreMembers lead ms := by
  induction ms generalizing m with
  | nil => simp [moreMembers]
  | cons m' ms ih =>
    simp only [List.map_cons] at ih ⊢
    rw [List.intersperse_cons_cons, List.flatten_cons, List.flatten_cons, ih m']
    simp [moreMembers]

def Apart (rest : List Char) : Prop :=
  ∀ c ∈ rest.head?, isSpace c = true ∨ c = ',' ∨ c = ']' ∨ c = '\x7d'

theorem apart_close {close : List Char} (blank : close.all isSpace = true) {c : Char}
    (closing : c = ']' ∨ c = '\x7d') (rest : List Char) : Apart (close ++ c :: rest) := by
  intro d first
  cases close with
  | nil =>
    obtain rfl : c = d := by simpa using first
    exact .inr (.inr closing)
  | cons b close =>
    obtain rfl : b = d := by simpa using first
    exact .inl (List.all_eq_true.mp blank b List.mem_cons_self)

theorem apart_moreMembers {rest : List Char} (apart : Apart rest) (lead : List Char)
    (ms : List (List Char)) : Apart (moreMembers lead ms ++ rest) := by
  cases ms with
  | nil => exact apart
  | cons m ms =>
    intro d first
    obtain rfl : ',' = d := by simpa [moreMembers] using first
    exact .inr (.inl rfl)

theorem bracketed_cons (opening closing : Char) (indent depth : Nat) (m : List Char)
    (ms : List (List Char)) :
    bracketed opening closing indent depth (m :: ms) =
      opening :: (('\n' :: spaces (indent * (depth + 1))) ++ m ++
        (moreMembers ('\n' :: spaces (indent * (depth + 1))) ms ++
          (('\n' :: spaces (indent * depth)) ++ [closing]))) := by
  rw [bracketed, flatten_intersperse]
  · simp
  · simp

theorem length_le_moreMembers (lead : List Char) (ms : List (List Char)) :
    ms.length ≤ (moreMembers lead ms).length := by
  induction ms with
  | nil => simp
  | cons m ms ih =>
    simp only [moreMembers, List.flatMap_cons, List.length_append, List.length_cons] at ih ⊢
    omega

theorem length_le_bracketed (indent depth : Nat) (ms : List (List Char)) :
    ms.length ≤ (bracketed '[' ']' indent depth ms).length := by
  rcases ms with _ | ⟨m, ms⟩
  · simp
  · have more := length_le_moreMembers ('\n' :: spaces (indent * (depth + 1))) ms
    rw [bracketed_cons]
    simp only [List.length_cons, List.length_append]
    omega

theorem length_le_moreMembers_of_mem (lead : List Char) {m : List Char} {ms : List (List Char)}
    (inside : m ∈ ms) : m.length ≤ (moreMembers lead ms).length := by
  have line : (',' :: (lead ++ m)).Sublist (moreMembers lead ms) :=
    List.sublist_flatten_of_mem (List.mem_map_of_mem (f := fun m => ',' :: (lead ++ m)) inside)
  have shorter := line.length_le
  simp only [List.length_cons, List.length_append] at shorter
  omega

theorem length_lt_bracketed (opening closing : Char) (indent depth : Nat) {m : List Char}
    {ms : List (List Char)} (inside : m ∈ ms) :
    m.length < (bracketed opening closing indent depth ms).length := by
  obtain ⟨first, more, rfl⟩ := List.exists_cons_of_ne_nil (List.ne_nil_of_mem inside)
  rw [bracketed_cons]
  simp only [List.length_cons, List.length_append]
  rcases List.mem_cons.mp inside with rfl | later
  · omega
  · have bound := length_le_moreMembers_of_mem ('\n' :: spaces (indent * (depth + 1))) later
    omega

theorem Value.charsOfAll_eq_map (indent depth : Nat) (vs : List Value) :
    Value.charsOfAll indent depth vs = vs.map (Value.chars indent depth) := by
  induction vs with
  | nil => rfl
  | cons v vs ih => rw [Value.charsOfAll, ih, List.map_cons]

end XmlDelta.Json
