import XmlDelta.Proofs.Markup.Attribute

set_option autoImplicit false

namespace XmlDelta.Markup

theorem cutFrom_append {σ : Type} {step : σ → UInt8 → Option σ} {q q' : σ} {x : Bytes}
    (passes : x.foldlM step q = some q') (seen s : Bytes) :
    cutFrom step q seen (x ++ s) = cutFrom step q' (x.reverse ++ seen) s := by
  induction x generalizing q seen with
  | nil =>
    cases passes
    rfl
  | cons b x ih =>
    rw [List.foldlM_cons] at passes
    cases first : step q b with
    | none => simp [first] at passes
    | some p =>
      rw [first] at passes
      simp only [List.cons_append, cutFrom, first, ih passes (b :: seen), List.reverse_cons,
        List.append_assoc, List.nil_append]

theorem cut_of_passes {σ : Type} {step : σ → UInt8 → Option σ} {q q' : σ} {x : Bytes}
    (passes : x.foldlM step q = some q') {b : UInt8} (stops : step q' b = none) (r : Bytes) :
    cut step q (x ++ b :: r) = some (x, r) := by
  rw [cut, cutFrom_append passes, cutFrom, stops]
  simp

theorem passes_append {q q' : Option UInt8} {x : Bytes} (passes : x.foldlM tagStep q = some q')
    (y : Bytes) : (x ++ y).foldlM tagStep q = y.foldlM tagStep q' := by
  rw [List.foldlM_append, passes]
  rfl

theorem tagStep_name {b : UInt8} (h : inName b = true) : tagStep none b = some none := by
  simp only [inName, Bool.and_eq_true, bne_iff_ne, ne_eq] at h
  simp [tagStep, h]

theorem passes_name {k : Bytes} (bare : ∀ b ∈ k, inName b = true) :
    k.foldlM tagStep none = some none := by
  induction k with
  | nil => rfl
  | cons b k ih =>
    rw [List.foldlM_cons, tagStep_name (bare b (by simp))]
    exact ih fun c inside => bare c (by simp [inside])

theorem passes_value {v : Bytes} (plain : '"'.toUInt8 ∉ v) :
    v.foldlM tagStep (some '"'.toUInt8) = some (some '"'.toUInt8) := by
  induction v with
  | nil => rfl
  | cons b v ih =>
    simp only [List.mem_cons, not_or] at plain
    have stays : tagStep (some '"'.toUInt8) b = some (some '"'.toUInt8) := by
      simp [tagStep, Ne.symm plain.1]
    rw [List.foldlM_cons, stays]
    exact ih plain.2

theorem passes_attribute {a : Bytes × Bytes} (plain : PlainAttribute a) :
    (attributeBytes a).foldlM tagStep none = some none := by
  have blank : tagStep none ' '.toUInt8 = some none := rfl
  have equals : tagStep none '='.toUInt8 = some none := rfl
  have opens : tagStep none '"'.toUInt8 = some (some '"'.toUInt8) := rfl
  rw [attributeBytes, List.foldlM_cons, blank]
  change List.foldlM tagStep none _ = _
  rw [passes_append (passes_name plain.key.bare), List.foldlM_cons, equals]
  change List.foldlM tagStep none _ = _
  rw [List.foldlM_cons, opens]
  change List.foldlM tagStep (some '"'.toUInt8) _ = _
  rw [passes_append (passes_value plain.value)]
  rfl

theorem passes_attributes {as : List (Bytes × Bytes)} (plain : ∀ a ∈ as, PlainAttribute a) :
    (as.flatMap attributeBytes).foldlM tagStep none = some none := by
  induction as with
  | nil => rfl
  | cons a as ih =>
    rw [List.flatMap_cons, passes_append (passes_attribute (plain a (by simp)))]
    exact ih fun b inside => plain b (by simp [inside])

def tagBytes (name : Bytes) (as : List (Bytes × Bytes)) : Bytes :=
  name ++ as.flatMap attributeBytes

theorem passes_tag {name : Bytes} {as : List (Bytes × Bytes)} (plainName : PlainName name)
    (plain : ∀ a ∈ as, PlainAttribute a) : (tagBytes name as).foldlM tagStep none = some none := by
  rw [tagBytes, passes_append (passes_name plainName.bare)]
  exact passes_attributes plain

theorem ne_of_inName {b c : UInt8} (name : inName b = true) (other : inName c = false) :
    b ≠ c := by
  intro same
  rw [same, other] at name
  cases name

theorem getLast?_tagBytes {name : Bytes} (plainName : PlainName name) (as : List (Bytes × Bytes)) :
    (tagBytes name as).getLast? ≠ some '/'.toUInt8 := by
  rcases List.eq_nil_or_concat as with rfl | ⟨as, a, rfl⟩
  · intro last
    have inside := List.mem_of_getLast? last
    rw [tagBytes, List.flatMap_nil, List.append_nil] at inside
    exact ne_of_inName (plainName.bare _ inside) rfl rfl
  · have ends : tagBytes name (as ++ [a]) =
        (tagBytes name as ++ ' '.toUInt8 :: (a.1 ++ '='.toUInt8 :: '"'.toUInt8 :: a.2)) ++
          ['"'.toUInt8] := by
      simp [tagBytes, attributeBytes]
    rw [List.concat_eq_append, ends, List.getLast?_concat]
    decide

def Stops (s : Bytes) : Prop :=
  ∀ b ∈ s.head?, isData b = false

theorem stops_nil : Stops [] := by
  intro b first
  cases first

theorem stops_cons_iff {b : UInt8} {s : Bytes} : Stops (b :: s) ↔ isData b = false := by
  simp [Stops]

theorem stops_tag (s : Bytes) : Stops ('<'.toUInt8 :: s) :=
  stops_cons_iff.mpr rfl

theorem stops_dropWhile (s : Bytes) : Stops (s.dropWhile isData) := by
  intro b first
  have ends := List.head?_dropWhile_not isData s
  rw [Option.mem_def.mp first] at ends
  exact ends

theorem takeWhile_run {x r : Bytes} (data : ∀ b ∈ x, isData b = true) (stops : Stops r) :
    (x ++ r).takeWhile isData = x ∧ (x ++ r).dropWhile isData = r := by
  rw [List.takeWhile_append_of_pos data, List.dropWhile_append_of_pos data]
  cases r with
  | nil => simp
  | cons b r => simp [stops b rfl]

theorem scan_text {x r : Bytes} (nonempty : x ≠ []) (data : ∀ b ∈ x, isData b = true)
    (stops : Stops r) : scan (x ++ r) = .ok (some ⟨.text x, x.length, r⟩) := by
  obtain ⟨run, rest⟩ := takeWhile_run data stops
  rcases x with _ | ⟨b, x⟩
  · exact absurd rfl nonempty
  · have first : isData b = true := data b List.mem_cons_self
    rw [List.cons_append, scan, if_neg (by simp [first]), ← List.cons_append]
    simp only [run, rest]

theorem scan_markup (u : Bytes) : scan ('<'.toUInt8 :: u) = (scanMarkup u).map some := by
  have tag : isData '<'.toUInt8 = false := rfl
  rw [scan, if_pos tag]

theorem scan_tag {c : UInt8} {x : Bytes} (declared : c ≠ '!'.toUInt8) (instruction : c ≠ '?'.toUInt8)
    (passes : (c :: x).foldlM tagStep none = some none) (r : Bytes) :
    scan ('<'.toUInt8 :: (c :: x ++ '>'.toUInt8 :: r)) =
      .ok (some ⟨tagItem (c :: x), (c :: x).length + 2, r⟩) := by
  have stops : tagStep none '>'.toUInt8 = none := rfl
  have found := cut_of_passes passes stops r
  rw [scan_markup, List.cons_append, scanMarkup]
  simp only [beq_iff_eq, declared, instruction, if_false, scanTag]
  rw [← List.cons_append, found]
  rfl

theorem scan_opening {name : Bytes} {as : List (Bytes × Bytes)} (plainName : PlainName name)
    (plain : ∀ a ∈ as, PlainAttribute a) (r : Bytes) :
    scan ('<'.toUInt8 :: (tagBytes name as ++ '>'.toUInt8 :: r)) =
      .ok (some ⟨.opening (tagBytes name as), (tagBytes name as).length + 2, r⟩) := by
  have passes := passes_tag plainName plain
  have last := getLast?_tagBytes plainName as
  rcases name with _ | ⟨b, name⟩
  · exact absurd rfl plainName.ne_nil
  · have first := plainName.bare b (by simp)
    have item : tagItem (tagBytes (b :: name) as) = .opening (tagBytes (b :: name) as) := by
      have slash := ne_of_inName (c := '/'.toUInt8) first rfl
      simp only [tagBytes, List.cons_append] at last ⊢
      simp [tagItem, slash, last]
    rw [← item]
    exact scan_tag (ne_of_inName first rfl) (ne_of_inName first rfl) passes r

theorem dropWhile_isSpace_of_bare {s : Bytes} (bare : ∀ b ∈ s, isSpace b = false) :
    s.dropWhile isSpace = s := by
  cases s with
  | nil => rfl
  | cons b r => exact List.dropWhile_cons_of_neg (by simp [bare b (by simp)])

theorem closingName_of_plain {name : Bytes} (plain : PlainName name) : closingName name = name := by
  have bare : ∀ b ∈ name, isSpace b = false := fun b inside =>
    not_isSpace_of_inName (plain.bare b inside)
  obtain ⟨b, inside⟩ := List.exists_mem_of_ne_nil name plain.ne_nil
  have some : name.all isSpace = false :=
    List.all_eq_false.mpr ⟨b, inside, by simp [bare b inside]⟩
  have trimmed : name.reverse.dropWhile isSpace = name.reverse :=
    dropWhile_isSpace_of_bare fun b inside => bare b (List.mem_reverse.mp inside)
  rw [closingName, some, trimEnd, trimmed, List.reverse_reverse]
  rfl

theorem scan_closing {name : Bytes} (plain : PlainName name) (r : Bytes) :
    scan ('<'.toUInt8 :: '/'.toUInt8 :: (name ++ '>'.toUInt8 :: r)) =
      .ok (some ⟨.closing name, name.length + 3, r⟩) := by
  have slash : tagStep none '/'.toUInt8 = some none := rfl
  have passes : ('/'.toUInt8 :: name).foldlM tagStep none = some none := by
    rw [List.foldlM_cons, slash]
    exact passes_name plain.bare
  have scanned := scan_tag (c := '/'.toUInt8) (by decide) (by decide) passes r
  rw [List.cons_append] at scanned
  rw [scanned]
  simp [tagItem, closingName_of_plain plain]

theorem tagName_tagBytes {name : Bytes} (plain : PlainName name) (as : List (Bytes × Bytes)) :
    tagName (tagBytes name as) = name := by
  have bare : ∀ b ∈ name, (!isSpace b) = true := by
    intro b inside
    simp [not_isSpace_of_inName (plain.bare b inside)]
  have blank : isSpace ' '.toUInt8 = true := rfl
  rw [tagName, tagBytes, List.takeWhile_append_of_pos bare]
  cases as with
  | nil => simp
  | cons a as => simp [attributeBytes, blank]

theorem attributes_tagBytes {name : Bytes} {as : List (Bytes × Bytes)} (plainName : PlainName name)
    (plain : ∀ a ∈ as, PlainAttribute a) (distinct : (as.map Prod.fst).Nodup) :
    ∃ raws, attributes true (tagBytes name as) = (raws, none) ∧
      raws.map (fun r => (r.key, r.value)) = as := by
  have bare : ∀ b ∈ name, (!isSpace b) = true := by
    intro b inside
    simp [not_isSpace_of_inName (plainName.bare b inside)]
  have blank : isSpace ' '.toUInt8 = true := rfl
  have content : (tagBytes name as).dropWhile (!isSpace ·) = as.flatMap attributeBytes := by
    rw [tagBytes, List.dropWhile_append_of_pos bare]
    cases as with
    | nil => rfl
    | cons a as => simp [attributeBytes, blank]
  obtain ⟨raws, read, same⟩ :=
    attributesFrom_written (tagBytes name as).length as plain [] distinct (by simp)
  refine ⟨raws, ?_, same⟩
  rw [attributes, content, read]
  rfl

end XmlDelta.Markup
