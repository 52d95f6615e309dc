import XmlDelta.Markup.Event

set_option autoImplicit false

namespace XmlDelta.Markup

inductive Resolves : List Char → List Char → Prop where
  | nil : Resolves [] []
  | char {c : Char} {s t : List Char} (plain : c ≠ '&') (rest : Resolves s t) :
    Resolves (c :: s) (c :: t)
  | reference {name s t : List Char} {c : Char} (bare : ∀ d ∈ name, inReference d = true)
      (known : ∀ start, resolve start name = .ok c) (rest : Resolves s t) :
    Resolves ('&' :: (name ++ ';' :: s)) (c :: t)

theorem resolve_start {start : Nat} {name : List Char} {c : Char}
    (known : resolve start name = .ok c) (start' : Nat) : resolve start' name = .ok c := by
  unfold resolve at known ⊢
  split at known
  · exact known
  · split at known
    · exact known
    · cases known

theorem takeWhile_reference {name : List Char} (bare : ∀ d ∈ name, inReference d = true)
    (s : List Char) : (name ++ ';' :: s).takeWhile inReference = name := by
  rw [List.takeWhile_append_of_pos bare, List.takeWhile_cons_of_neg (by decide), List.append_nil]

theorem dropWhile_reference {name : List Char} (bare : ∀ d ∈ name, inReference d = true)
    (s : List Char) : (name ++ ';' :: s).dropWhile inReference = ';' :: s := by
  rw [List.dropWhile_append_of_pos bare, List.dropWhile_cons_of_neg (by decide)]

theorem Resolves.resolveFrom_eq {s t : List Char} (resolves : Resolves s t) (total offset : Nat)
    (seen : List Char) : resolveFrom total offset seen s = .ok (seen.reverse ++ t) := by
  induction resolves generalizing offset seen with
  | nil => rw [resolveFrom, List.append_nil]
  | @char c s t plain _ ih =>
    rw [resolveFrom, if_neg plain, ih]
    simp
  | @reference name s t c bare known _ ih =>
    rw [resolveFrom, if_pos rfl]
    simp only [takeWhile_reference bare]
    split
    · rename_i rest behind
      rw [dropWhile_reference bare] at behind
      cases behind
      simp only [known, ih]
      simp
    · rename_i other
      exact absurd (dropWhile_reference bare s) (other s)

theorem resolves_plain {s : List Char} (plain : '&' ∉ s) : Resolves s s := by
  induction s with
  | nil => exact .nil
  | cons c s ih =>
    rw [List.mem_cons, not_or] at plain
    exact .char (Ne.symm plain.1) (ih plain.2)

theorem resolves_of_resolveFrom {total offset : Nat} {seen s w : List Char}
    (resolved : resolveFrom total offset seen s = .ok w) :
    ∃ t, w = seen.reverse ++ t ∧ Resolves s t := by
  fun_induction resolveFrom total offset seen s generalizing w with
  | case1 offset seen =>
    cases resolved
    exact ⟨[], by simp, .nil⟩
  | case2 offset seen r name rest behind d known =>
    rename_i ih
    obtain ⟨t, rfl, resolves⟩ := ih resolved
    have bare : ∀ e ∈ r.takeWhile inReference, inReference e = true :=
      List.all_eq_true.mp List.all_takeWhile
    have whole : r = r.takeWhile inReference ++ ';' :: rest := by
      rw [← behind, List.takeWhile_append_dropWhile]
    refine ⟨d :: t, by simp, ?_⟩
    rw [whole]
    exact .reference bare (resolve_start known) resolves
  | case3 => cases resolved
  | case4 => cases resolved
  | case5 offset seen c r plain ih =>
    obtain ⟨t, rfl, resolves⟩ := ih resolved
    exact ⟨c :: t, by simp, .char plain resolves⟩

theorem unescape_eq_ok_iff {s t : String} :
    unescape s = .ok t ↔ Resolves s.toList t.toList := by
  unfold unescape resolveReferences
  constructor
  · intro resolved
    cases found : resolveFrom (Text.Utf8.encode s.toList).length 0 [] s.toList with
    | error f => simp [found, Except.map] at resolved
    | ok w =>
      obtain ⟨t', rfl, resolves⟩ := resolves_of_resolveFrom found
      simp only [found, Except.map, Except.ok.injEq] at resolved
      rwa [← resolved, String.toList_ofList]
  · intro resolves
    simp [resolves.resolveFrom_eq, Except.map]

/-- No reference is open at the end: every `&` has its `;` behind it. -/
def Closed : List Char → Prop
  | [] => True
  | c :: r => (c = '&' → ';' ∈ r) ∧ Closed r

theorem Closed.of_append {s t : List Char} (closed : Closed (s ++ t)) : Closed t := by
  induction s with
  | nil => exact closed
  | cons c s ih => exact ih closed.2

theorem Resolves.append {s s' t t' : List Char} (left : Resolves s t) (right : Resolves s' t') :
    Resolves (s ++ s') (t ++ t') := by
  induction left with
  | nil => exact right
  | char plain _ ih => exact .char plain ih
  | reference bare known _ ih =>
    simp only [List.cons_append, List.append_assoc]
    exact .reference bare known ih

theorem Resolves.split {u v w : List Char} (resolves : Resolves (u ++ v) w) (closed : Closed u) :
    ∃ p q, w = p ++ q ∧ Resolves u p ∧ Resolves v q := by
  generalize whole : u ++ v = s at resolves
  induction resolves generalizing u with
  | nil =>
    obtain ⟨rfl, rfl⟩ := List.append_eq_nil_iff.mp whole
    exact ⟨[], [], rfl, .nil, .nil⟩
  | @char c s t plain rest ih =>
    cases u with
    | nil =>
      obtain rfl : v = c :: s := whole
      exact ⟨[], c :: t, rfl, .nil, .char plain rest⟩
    | cons d u =>
      obtain ⟨rfl, below⟩ := List.cons_eq_cons.mp whole
      obtain ⟨p, q, rfl, left, right⟩ := ih closed.2 below
      exact ⟨d :: p, q, rfl, .char plain left, right⟩
  | @reference name s t c bare known rest ih =>
    cases u with
    | nil =>
      obtain rfl : v = '&' :: (name ++ ';' :: s) := whole
      exact ⟨[], c :: t, rfl, .nil, .reference bare known rest⟩
    | cons d u =>
      obtain ⟨rfl, below⟩ := List.cons_eq_cons.mp whole
      -- The reference ends before the cut, since its `;` does.
      rcases List.append_eq_append_iff.mp below with ⟨front, rfl, -⟩ | ⟨front, rfl, behind⟩
      · have semicolon : ';' ∈ u := closed.1 rfl
        exact absurd (bare ';' (List.mem_append_left _ semicolon)) (by decide)
      · cases front with
        | nil =>
          have semicolon : ';' ∈ name := by simpa using closed.1 rfl
          exact absurd (bare ';' semicolon) (by decide)
        | cons e front =>
          obtain ⟨rfl, rfl⟩ := List.cons_eq_cons.mp behind
          obtain ⟨p, q, rfl, left, right⟩ := ih closed.2.of_append.2 rfl
          exact ⟨c :: p, q, rfl, .reference bare known left, right⟩

end XmlDelta.Markup
