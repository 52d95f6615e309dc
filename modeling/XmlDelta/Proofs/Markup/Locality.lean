import XmlDelta.Proofs.Markup.Delivery

set_option autoImplicit false

namespace XmlDelta.Markup

theorem exists_of_cutFrom {σ : Type} {step : σ → UInt8 → Option σ} {q : σ} {seen s x r : Bytes}
    (found : cutFrom step q seen s = some (x, r)) :
    ∃ y b q', x = seen.reverse ++ y ∧ s = y ++ b :: r ∧ y.foldlM step q = some q' ∧
      step q' b = none := by
  induction s generalizing q seen with
  | nil => cases found
  | cons b s ih =>
    rw [cutFrom] at found
    cases first : step q b with
    | none =>
      rw [first] at found
      cases found
      exact ⟨[], b, q, by simp, rfl, rfl, first⟩
    | some q' =>
      rw [first] at found
      obtain ⟨y, c, q'', rfl, rfl, passes, stops⟩ := ih found
      refine ⟨b :: y, c, q'', by simp, rfl, ?_, stops⟩
      rw [List.foldlM_cons, first]
      exact passes

section Markup

variable {s : Bytes} {y : Scanned}

def Item.isText : Item → Bool
  | .text _ => true
  | _ => false

structure EndsAt (scanner : Bytes → Except ScanError Scanned) (s : Bytes) (y : Scanned) : Prop where
  markup : y.item.isText = false
  ends : ∃ x, s = x ++ '>'.toUInt8 :: y.rest ∧
    ∀ t, scanner (x ++ '>'.toUInt8 :: t) = .ok { y with rest := t }

theorem close_endsAt {σ : Type} {step : σ → UInt8 → Option σ} {q : σ} {f : ScanFault} {n : Nat}
    {item : Bytes → Except ScanError Item}
    (stops : ∀ q b, step q b = none → b = '>'.toUInt8)
    (markup : ∀ x i, item x = .ok i → i.isText = false)
    (closed : close (cut step q s) f n item = .ok y) :
    EndsAt (fun s => close (cut step q s) f n item) s y := by
  cases found : cut step q s with
  | none =>
    rw [found] at closed
    cases closed
  | some p =>
    obtain ⟨x, r⟩ := p
    obtain ⟨_, b, q', rfl, rfl, passes, last⟩ := exists_of_cutFrom found
    rw [found] at closed
    obtain rfl := stops q' b last
    cases made : item x with
    | error e => simp [close, made, Except.map] at closed
    | ok i =>
      simp only [close, made, Except.map, Except.ok.injEq] at closed
      subst closed
      refine ⟨markup x i made, x, rfl, ?_⟩
      intro t
      simp only [cut_of_passes passes last t, close, made, Except.map]

theorem cdataItem_not_isText (x : Bytes) (i : Item) (made : cdataItem x = .ok i) :
    i.isText = false := by
  unfold cdataItem at made
  split at made
  · cases made
    rfl
  · cases made

theorem commentItem_not_isText (x : Bytes) (i : Item) (made : commentItem x = .ok i) :
    i.isText = false := by
  unfold commentItem at made
  split at made
  · cases made
    rfl
  · cases made

theorem doctypeItem_not_isText (x : Bytes) (i : Item) (made : doctypeItem x = .ok i) :
    i.isText = false := by
  unfold doctypeItem at made
  split at made
  · split at made
    · cases made
    · cases made
      rfl
  · cases made

theorem instructionItem_not_isText (x : Bytes) (i : Item) (made : instructionItem x = .ok i) :
    i.isText = false := by
  unfold instructionItem at made
  split at made
  · cases made
  · cases made
    split <;> rfl

theorem tagItem_not_isText (x : Bytes) : (tagItem x).isText = false := by
  unfold tagItem
  split
  · rfl
  · repeat' split
    all_goals rfl

theorem stopsAfter_stops {ends : Bytes → Bool} (before : Bytes) (b : UInt8)
    (stops : stopsAfter ends before b = none) : b = '>'.toUInt8 := by
  by_cases last : b = '>'.toUInt8
  · exact last
  · simp [stopsAfter, last] at stops

theorem doctypeStep_stops (depth : Nat) (b : UInt8) (stops : doctypeStep depth b = none) :
    b = '>'.toUInt8 := by
  by_cases last : b = '>'.toUInt8
  · exact last
  · by_cases opens : b = '<'.toUInt8
    · simp [doctypeStep, opens] at stops
    · simp [doctypeStep, last, opens] at stops

theorem tagStep_stops (quote : Option UInt8) (b : UInt8) (stops : tagStep quote b = none) :
    b = '>'.toUInt8 := by
  by_cases last : b = '>'.toUInt8
  · exact last
  · cases quote with
    | none =>
      simp only [tagStep, beq_iff_eq, last, if_false] at stops
      split at stops <;> cases stops
    | some q => simp [tagStep] at stops

theorem scanDeclared_endsAt (scanned : scanDeclared s = .ok y) : EndsAt scanDeclared s y := by
  -- The kind is told by a byte that is there whatever comes behind the item.
  have kind : ∀ x t t' : Bytes, (x ++ '>'.toUInt8 :: t).head? = (x ++ '>'.toUInt8 :: t').head? := by
    intro x t t'
    cases x <;> rfl
  have ends : ∀ scanner : Bytes → Except ScanError Scanned, EndsAt scanner s y →
      (∀ s', s'.head? = s.head? → scanDeclared s' = scanner s') → EndsAt scanDeclared s y := by
    rintro scanner ⟨markup, x, rfl, back⟩ same
    refine ⟨markup, x, rfl, ?_⟩
    intro t
    rw [same _ (kind x t y.rest), back]
  unfold scanDeclared at scanned
  simp only at scanned
  split at scanned
  · rename_i cdata
    apply ends _ (close_endsAt stopsAfter_stops cdataItem_not_isText scanned)
    intro s' head
    simp only [scanDeclared, head, cdata, if_true]
  split at scanned
  · rename_i cdata comment
    apply ends _ (close_endsAt stopsAfter_stops commentItem_not_isText scanned)
    intro s' head
    simp only [scanDeclared, head, cdata, comment, Bool.false_eq_true, if_true, if_false]
  split at scanned
  · rename_i cdata comment doctype
    apply ends _ (close_endsAt doctypeStep_stops doctypeItem_not_isText scanned)
    intro s' head
    simp only [scanDeclared, head, cdata, comment, doctype, Bool.false_eq_true, if_true, if_false]
  · cases scanned

theorem scanMarkup_endsAt (scanned : scanMarkup s = .ok y) : EndsAt scanMarkup s y := by
  cases s with
  | nil => cases scanned
  | cons c u =>
    rw [scanMarkup] at scanned
    split at scanned
    · rename_i declared
      obtain ⟨markup, x, rfl, back⟩ := scanDeclared_endsAt scanned
      refine ⟨markup, c :: x, rfl, ?_⟩
      intro t
      rw [List.cons_append, scanMarkup, if_pos declared, back]
    split at scanned
    · rename_i declared instruction
      obtain ⟨markup, x, rfl, back⟩ :=
        close_endsAt stopsAfter_stops instructionItem_not_isText scanned
      refine ⟨markup, c :: x, rfl, ?_⟩
      intro t
      rw [List.cons_append, scanMarkup, if_neg declared, if_pos instruction]
      exact back t
    · rename_i declared instruction
      have tag : ∀ x i, (.ok (tagItem x) : Except ScanError Item) = .ok i → i.isText = false := by
        rintro x _ ⟨⟩
        exact tagItem_not_isText x
      obtain ⟨markup, x, whole, back⟩ := close_endsAt tagStep_stops tag scanned
      refine ⟨markup, x, whole, ?_⟩
      intro t
      cases x with
      | nil =>
        cases whole
        rw [List.nil_append, scanMarkup, if_neg declared, if_neg instruction]
        exact back t
      | cons d x =>
        cases whole
        rw [List.cons_append, scanMarkup, if_neg declared, if_neg instruction]
        exact back t

theorem scan_cases (scanned : scan s = .ok (some y)) :
    (∃ raw, raw ≠ [] ∧ (∀ b ∈ raw, isData b = true) ∧ Stops y.rest ∧ s = raw ++ y.rest ∧
      y = ⟨.text raw, raw.length, y.rest⟩) ∨
      ∃ u, s = '<'.toUInt8 :: u ∧ scanMarkup u = .ok y := by
  cases s with
  | nil => cases scanned
  | cons b u =>
    rw [scan] at scanned
    split at scanned
    · rename_i tag
      obtain rfl : b = '<'.toUInt8 := by simpa [isData] using tag
      cases made : scanMarkup u with
      | error e => simp [made, Except.map] at scanned
      | ok y' =>
        simp only [made, Except.map, Except.ok.injEq, Option.some.injEq] at scanned
        exact .inr ⟨u, rfl, scanned ▸ made⟩
    · rename_i data
      have data : isData b = true := by simpa using data
      simp only [Except.ok.injEq, Option.some.injEq] at scanned
      subst scanned
      refine .inl ⟨(b :: u).takeWhile isData, ?_, ?_, stops_dropWhile _, ?_, rfl⟩
      · simp [data]
      · exact List.all_eq_true.mp List.all_takeWhile
      · exact List.takeWhile_append_dropWhile.symm

theorem scan_local (scanned : scan s = .ok (some y)) :
    ∃ x, x ≠ [] ∧ s = x ++ y.rest ∧ (y.item.isText = true ↔ ¬ Stops s) ∧
      (y.item.isText = true → Stops y.rest) ∧
      ∀ t, (y.item.isText = true → Stops t) → scan (x ++ t) = .ok (some { y with rest := t }) := by
  rcases scan_cases scanned with ⟨raw, nonempty, data, stops, whole, shape⟩ | ⟨u, rfl, markup⟩
  · have text : y.item.isText = true := by rw [shape]; rfl
    refine ⟨raw, nonempty, whole, iff_of_true text ?_, fun _ => stops, ?_⟩
    · obtain ⟨b, raw, rfl⟩ := List.exists_cons_of_ne_nil nonempty
      intro ends
      have tag := ends b (by rw [whole]; rfl)
      rw [data b List.mem_cons_self] at tag
      cases tag
    · intro t ends
      rw [scan_text nonempty data (ends text), shape]
  · obtain ⟨other, x, rfl, back⟩ := scanMarkup_endsAt markup
    refine ⟨'<'.toUInt8 :: (x ++ ['>'.toUInt8]), by simp, by simp, ?_, ?_, ?_⟩
    · exact iff_of_false (by simp [other]) fun no => no (stops_tag _)
    · intro text
      rw [other] at text
      cases text
    · intro t _
      have shape : '<'.toUInt8 :: (x ++ ['>'.toUInt8]) ++ t =
          '<'.toUInt8 :: (x ++ '>'.toUInt8 :: t) := by
        simp
      rw [shape, scan_markup, back]
      rfl

end Markup

def Event.isText : Event → Bool
  | .text _ => true
  | _ => false

namespace Reader

def moved (r : Reader) (rest : Bytes) (offset : Nat) : Reader :=
  { r with rest, offset }

def declared? (r : Reader) (content : Bytes) : Option XmlDelta.Text.Encoding :=
  if r.settled then none else declaredEncoding content

variable [XmlDelta.Text.EastAsian]

theorem read_declaration_of_none {r : Reader} {content : Bytes}
    (unknown : r.declared? content = none) (size : Nat) (rest : Bytes) :
    r.read ⟨.declaration content, size, rest⟩ = .ok (.ignored, r.moved rest (r.offset + size)) := by
  unfold declared? at unknown
  simp only [Reader.read, unknown, moved]

theorem read_declaration_of_some {r : Reader} {content : Bytes} {e : XmlDelta.Text.Encoding}
    (known : r.declared? content = some e) (size : Nat) (rest : Bytes) :
    r.read ⟨.declaration content, size, rest⟩ =
      .ok (.ignored, { r.moved rest (r.offset + size) with encoding := e, settled := true }) := by
  unfold declared? at known
  simp only [Reader.read, known, moved]

theorem exists_opened_of_read {r r' : Reader} {name rest : Bytes} {size : Nat} {e : Event}
    (read : r.read ⟨.closing name, size, rest⟩ = .ok (e, r')) : ∃ os, r.opened = name :: os := by
  cases opened : r.opened with
  | nil => simp [Reader.read, opened] at read
  | cons o os =>
    by_cases same : name = o
    · exact ⟨os, by rw [same]⟩
    · simp [Reader.read, opened, same] at read

theorem mode_of_read {r r' : Reader} {y : Scanned} {e : Event} (read : r.read y = .ok (e, r')) :
    (r'.encoding = r.encoding ∧ r'.settled = r.settled) ∨
      ∃ content, y.item = .declaration content ∧ r.declared? content = some r'.encoding := by
  obtain ⟨item, size, rest⟩ := y
  cases item with
  | declaration content =>
    cases declared : r.declared? content with
    | none =>
      rw [read_declaration_of_none declared] at read
      cases read
      exact .inl ⟨rfl, rfl⟩
    | some encoding =>
      rw [read_declaration_of_some declared] at read
      cases read
      exact .inr ⟨content, rfl, declared⟩
  | closing name =>
    obtain ⟨os, opened⟩ := exists_opened_of_read read
    rw [read_closing opened] at read
    cases read
    exact .inl ⟨rfl, rfl⟩
  | _ =>
    cases read
    exact .inl ⟨rfl, rfl⟩

theorem read_local {r r' : Reader} {y : Scanned} {e : Event} (read : r.read y = .ok (e, r')) :
    e.isText = y.item.isText ∧ ∀ s t n,
      (r.moved s n).read { y with rest := t } = .ok (e, r'.moved t (n + y.size)) := by
  obtain ⟨item, size, rest⟩ := y
  cases item with
  | declaration content =>
    cases declared : r.declared? content with
    | none =>
      rw [read_declaration_of_none declared] at read
      cases read
      exact ⟨rfl, fun s t n => read_declaration_of_none (r := r.moved s n) declared size t⟩
    | some encoding =>
      rw [read_declaration_of_some declared] at read
      cases read
      exact ⟨rfl, fun s t n => read_declaration_of_some (r := r.moved s n) declared size t⟩
  | closing name =>
    obtain ⟨os, opened⟩ := exists_opened_of_read read
    rw [read_closing opened] at read
    cases read
    exact ⟨rfl, fun s t n => read_closing (r := r.moved s n) opened t size⟩
  | _ =>
    cases read
    exact ⟨rfl, fun _ _ _ => rfl⟩

theorem exists_of_next {r r' : Reader} {e : Event} (next : r.next = .ok (some (e, r'))) :
    ∃ y, scan r.rest = .ok (some y) ∧ r.read y = .ok (e, r') := by
  unfold Reader.next at next
  split at next
  · cases next
  · cases next
  · rename_i y scanned
    cases read : r.read y with
    | error f => simp [read, Except.map] at next
    | ok p =>
      simp only [read, Except.map, Except.ok.injEq, Option.some.injEq] at next
      exact ⟨y, scanned, next ▸ read⟩

theorem next_local {r r' : Reader} {e : Event} (next : r.next = .ok (some (e, r'))) :
    ∃ x, x ≠ [] ∧ r.rest = x ++ r'.rest ∧ (e.isText = true ↔ ¬ Stops r.rest) ∧
      (e.isText = true → Stops r'.rest) ∧ ∀ t n, (e.isText = true → Stops t) →
        ∃ m, (r.moved (x ++ t) n).next = .ok (some (e, r'.moved t m)) := by
  obtain ⟨y, scanned, read⟩ := exists_of_next next
  obtain ⟨text, back⟩ := read_local read
  obtain ⟨x, nonempty, whole, starts, stops, again⟩ := scan_local scanned
  rw [← text] at starts stops again
  rw [read_rest read]
  refine ⟨x, nonempty, whole, starts, stops, ?_⟩
  intro t n ends
  exact ⟨n + y.size, next_of_scan (again t ends) (back (x ++ t) t n)⟩

theorem exists_run_of_next {r r' : Reader} {e : Event} (next : r.next = .ok (some (e, r')))
    (text : e.isText = true) :
    ∃ raw, raw ≠ [] ∧ (∀ b ∈ raw, isData b = true) ∧ r.rest = raw ++ r'.rest := by
  obtain ⟨y, scanned, read⟩ := exists_of_next next
  rw [(read_local read).1] at text
  rw [read_rest read]
  rcases scan_cases scanned with ⟨raw, nonempty, data, -, whole, -⟩ | ⟨u, -, markup⟩
  · exact ⟨raw, nonempty, data, whole⟩
  · rw [(scanMarkup_endsAt markup).markup] at text
    cases text

end Reader

namespace Delivers

variable [XmlDelta.Text.EastAsian] {r r₁ : Reader} {es : List Event}

/-- `es` does not end in character data that what follows would go on with. -/
def Ended (es : List Event) (t : Bytes) : Prop :=
  ∀ e ∈ es.getLast?, e.isText = true → Stops t

theorem stops_of_text (delivers : Delivers r es r₁) {e : Event} (last : e ∈ es.getLast?)
    (text : e.isText = true) : Stops r₁.rest := by
  induction delivers with
  | done r => cases last
  | @next r r₁ r₂ e' es first rest ih =>
    cases es with
    | nil =>
      cases rest
      cases last
      obtain ⟨-, -, -, -, stops, -⟩ := Reader.next_local first
      exact stops text
    | cons e₂ es => exact ih (by simpa using last)

theorem exists_moved (delivers : Delivers r es r₁) :
    ∃ x, (es ≠ [] → x ≠ []) ∧ r.rest = x ++ r₁.rest ∧ ∀ t n, Ended es t →
      ∃ m, Delivers (r.moved (x ++ t) n) es (r₁.moved t m) := by
  induction delivers with
  | done r => exact ⟨[], fun none => absurd rfl none, rfl, fun t n _ => ⟨n, .done _⟩⟩
  | @next r r₁ r₂ e es first rest ih =>
    obtain ⟨x, nonempty, whole, -, stops, again⟩ := Reader.next_local first
    obtain ⟨y, more, below, back⟩ := ih
    refine ⟨x ++ y, ?_, by rw [whole, below, List.append_assoc], ?_⟩
    · exact fun _ empty => nonempty (List.append_eq_nil_iff.mp empty).1
    · intro t n ended
      have behind : e.isText = true → Stops (y ++ t) := by
        intro text
        cases es with
        | nil =>
          cases rest
          have none : y = [] := by simpa using below
          rw [none]
          exact ended e rfl text
        | cons e' es =>
          -- What comes next begins with the byte that ended the text before.
          obtain ⟨b, y, rfl⟩ := List.exists_cons_of_ne_nil (more (by simp))
          have ends := stops text
          rw [below] at ends
          exact stops_cons_iff.mpr (stops_cons_iff.mp ends)
      have later : Ended es t := by
        intro e' last
        apply ended e'
        cases es with
        | nil => cases last
        | cons e₂ es => simpa using last
      obtain ⟨m, second⟩ := again (y ++ t) n behind
      obtain ⟨m', third⟩ := back t m later
      rw [List.append_assoc]
      exact ⟨m', .next second third⟩

end Delivers

end XmlDelta.Markup
