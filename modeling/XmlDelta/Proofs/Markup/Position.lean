import XmlDelta.Proofs.Markup.Insertion

set_option autoImplicit false

namespace XmlDelta.Markup

open XmlDelta.Text

section Mark

def mark : Char := Char.ofNat 0xFEFF

def unmarked : List Char → List Char
  | [] => []
  | c :: cs => if c = mark then cs else c :: cs

theorem eq_mark_of_prefix {c : Char} {cs : List Char}
    (begins : [0xEF, 0xBB, 0xBF].isPrefixOf (Utf8.encode (c :: cs)) = true) : c = mark := by
  obtain ⟨r, bytes⟩ := List.isPrefixOf_iff_prefix.mp begins
  have first : Utf8.next (Utf8.encode (c :: cs)) = some (c, Utf8.encode cs) :=
    Utf8.next_encodeChar c _
  have marked : Utf8.next ([0xEF, 0xBB, 0xBF] ++ r) = some (mark, r) := rfl
  rw [bytes, first] at marked
  cases marked
  rfl

theorem rest_ofText (s : String) : (Reader.ofText s).rest = Utf8.encode (unmarked s.toList) := by
  have rest : (Reader.ofText s).rest =
      if [0xEF, 0xBB, 0xBF].isPrefixOf (Utf8.encode s.toList) then (Utf8.encode s.toList).drop 3
      else Utf8.encode s.toList := rfl
  rw [rest]
  cases s.toList with
  | nil => rfl
  | cons c cs =>
    by_cases marked : c = mark
    · subst marked
      rfl
    · rw [if_neg (mt eq_mark_of_prefix marked), unmarked, if_neg marked]

theorem ofText_eq {s : String} {rest : Bytes} (encoded : Utf8.encode (unmarked s.toList) = rest) :
    Reader.ofText s = ⟨rest, 0, [], .utf8, true⟩ := by
  rw [← encoded, ← rest_ofText]
  rfl

theorem encode_unmarked_insert {xs ys : List Char} {front : Bytes}
    (reached : Utf8.encode (unmarked (xs ++ ys)) = front ++ Utf8.encode ys) {zs : List Char}
    (noMark : ∀ c ∈ zs.head?, c ≠ mark) :
    Utf8.encode (unmarked (xs ++ (zs ++ ys))) = front ++ (Utf8.encode zs ++ Utf8.encode ys) := by
  cases xs with
  | cons c xs =>
    obtain ⟨kept, same⟩ : ∃ kept, ∀ ts, unmarked (c :: xs ++ ts) = kept ++ ts := by
      by_cases marked : c = mark
      · exact ⟨xs, fun ts => by simp [unmarked, marked]⟩
      · exact ⟨c :: xs, fun ts => by simp [unmarked, marked]⟩
    rw [same, Utf8.encode_append] at reached
    rw [same, Utf8.encode_append, Utf8.encode_append, List.append_cancel_right reached]
  | nil =>
    have start : unmarked ys = ys ∧ front = [] := by
      cases ys with
      | nil =>
        rw [List.nil_append] at reached
        exact ⟨rfl, by simpa [unmarked, Utf8.encode] using reached.symm⟩
      | cons c ys =>
        by_cases marked : c = mark
        · rw [List.nil_append, unmarked, if_pos marked, marked] at reached
          have lengths := congrArg List.length reached
          have three : (Utf8.encode (mark :: ys)).length = 3 + (Utf8.encode ys).length := by
            rw [Utf8.encode, List.flatMap_cons, List.length_append]
            rfl
          rw [List.length_append, three] at lengths
          omega
        · rw [List.nil_append, unmarked, if_neg marked] at reached
          rw [unmarked, if_neg marked]
          exact ⟨rfl, by simpa using reached⟩
    rw [start.2, List.nil_append, List.nil_append, ← Utf8.encode_append]
    cases zs with
    | nil => rw [List.nil_append, start.1]
    | cons c zs => rw [List.cons_append, unmarked, if_neg (noMark c rfl)]

end Mark

section Settled

variable [EastAsian]

theorem settled_of_next {r r' : Reader} {e : Event} (next : r.next = .ok (some (e, r')))
    (settled : r.settled = true) : r'.settled = true ∧ r'.encoding = r.encoding := by
  obtain ⟨y, -, read⟩ := Reader.exists_of_next next
  obtain ⟨encoding, same⟩ | ⟨content, -, declared⟩ := Reader.mode_of_read read
  · exact ⟨same.trans settled, encoding⟩
  · rw [Reader.declared?, settled] at declared
    cases declared

theorem Delivers.settled {r r₁ : Reader} {es : List Event} (delivers : Delivers r es r₁)
    (settled : r.settled = true) : r₁.settled = true ∧ r₁.encoding = r.encoding := by
  induction delivers with
  | done r => exact ⟨settled, rfl⟩
  | next first _ ih =>
    obtain ⟨still, same⟩ := settled_of_next first settled
    obtain ⟨last, same'⟩ := ih still
    exact ⟨last, same'.trans same⟩

end Settled

section Positions

variable [EastAsian]

/-- Between `xs` and `ys` no item and no reference of the document is cut in two. -/
def Outside (d : String) (xs ys : List Char) : Prop :=
  d.toList = xs ++ ys ∧ ∃ es r u, Delivers (.ofText d) es r ∧ r.rest = Utf8.encode (u ++ ys) ∧
    '<' ∉ u ∧ Closed u

def Event.isTag : Event → Bool
  | .start _ | .empty _ | .finish => true
  | _ => false

omit [EastAsian] in
theorem not_isText_of_isTag {e : Event} (tag : e.isTag = true) : e.isText = false := by
  cases e with
  | text s => cases tag
  | _ => rfl

/-- A tag ends right before `ys`, or begins there. -/
def BesideTag (d : String) (xs ys : List Char) : Prop :=
  d.toList = xs ++ ys ∧ ∃ es r, Delivers (.ofText d) es r ∧ r.rest = Utf8.encode ys ∧
    ((∃ e ∈ es.getLast?, e.isTag = true) ∨ ∃ e r', r.next = .ok (some (e, r')) ∧ e.isTag = true)

def inserted (xs zs ys : List Char) : String :=
  String.ofList (xs ++ (zs ++ ys))

theorem delivers_inserted {d : String} {xs ys : List Char} (whole : d.toList = xs ++ ys)
    {es : List Event} {r : Reader} (delivers : Delivers (.ofText d) es r) {before : Bytes}
    (here : r.rest = before ++ Utf8.encode ys) {zs : List Char} (noMark : ∀ c ∈ zs.head?, c ≠ mark)
    (ended : Delivers.Ended es (before ++ (Utf8.encode zs ++ Utf8.encode ys))) :
    ∃ m, Delivers (.ofText (inserted xs zs ys)) es
      (r.moved (before ++ (Utf8.encode zs ++ Utf8.encode ys)) m) := by
  obtain ⟨x, -, start, again⟩ := delivers.exists_moved
  rw [rest_ofText, whole, here, ← List.append_assoc] at start
  have start' := encode_unmarked_insert start noMark
  obtain ⟨m, delivers'⟩ := again _ 0 ended
  have reader : Reader.ofText (inserted xs zs ys) =
      (Reader.ofText d).moved (x ++ (before ++ (Utf8.encode zs ++ Utf8.encode ys))) 0 := by
    rw [← List.append_assoc, ← start', ← String.toList_ofList (l := xs ++ (zs ++ ys)),
      ← rest_ofText]
    rfl
  rw [reader]
  exact ⟨m, delivers'⟩

theorem Delivers.exists_shifted {r rEnd : Reader} {hs : List Event} (delivers : Delivers r hs rEnd)
    (atEnd : rEnd.rest = []) (n : Nat) :
    ∃ r', Delivers (r.moved r.rest n) hs r' ∧ r'.rest = [] := by
  obtain ⟨x, -, whole, again⟩ := delivers.exists_moved
  obtain ⟨m, shifted⟩ := again [] n fun _ _ _ => stops_nil
  rw [atEnd] at whole
  rw [whole]
  exact ⟨_, shifted, rfl⟩

theorem ended_outside {es : List Event} {r r₁ : Reader} (delivers : Delivers r es r₁)
    {u ys : List Char} (here : r₁.rest = Utf8.encode (u ++ ys)) (noTag : '<' ∉ u) (s : Bytes) :
    Delivers.Ended es (Utf8.encode u ++ '<'.toUInt8 :: s) := by
  intro e last text
  have stops := delivers.stops_of_text last text
  cases bytes : Utf8.encode u with
  | nil => exact stops_tag s
  | cons b raw =>
    have data := data_encode noTag b (by rw [bytes]; exact List.mem_cons_self)
    rw [here, Utf8.encode_append, bytes] at stops
    rw [stops_cons_iff.mp stops] at data
    cases data

theorem exists_run_cut {r₀ r rEnd : Reader} {es gs : List Event} (delivers : Delivers r₀ es r)
    (utf8 : r.encoding = .utf8) {u s : Bytes} (data : ∀ b ∈ u, isData b = true)
    (here : r.rest = u ++ s) (whole : Delivers r₀ gs rEnd) (atEnd : rEnd.rest = []) :
    ∃ hs, gs = es ++ (textEvents (u ++ s.takeWhile isData) ++ hs) ∧
      ∀ n, ∃ r', Delivers (r.moved (s.dropWhile isData) n) hs r' ∧ r'.rest = [] := by
  obtain ⟨fs, rfl, behind⟩ := delivers.exists_rest whole atEnd
  have more : ∀ b ∈ s.takeWhile isData, isData b = true := List.all_eq_true.mp List.all_takeWhile
  obtain ⟨m, text⟩ := delivers_run utf8 (List.forall_mem_append.mpr ⟨data, more⟩)
    (stops_dropWhile s) r.offset
  rw [List.append_assoc, List.takeWhile_append_dropWhile, ← here] at text
  obtain ⟨hs, rfl, rest⟩ := text.exists_rest behind atEnd
  exact ⟨hs, rfl, fun n => rest.exists_shifted atEnd n⟩

theorem exists_delivers_aside {d : String} {xs ys : List Char} (outside : Outside d xs ys)
    {gs : List Event} {rEnd : Reader} (whole : Delivers (.ofText d) gs rEnd)
    (atEnd : rEnd.rest = []) {a : Aside} (plain : a.Plain) :
    ∃ es u v hs r', Closed u ∧ gs = es ++ (textEvents (Utf8.encode u ++ v) ++ hs) ∧
      Delivers (.ofText (inserted xs a.text ys))
        (es ++ (textEvents (Utf8.encode u) ++ .ignored :: (textEvents v ++ hs))) r' ∧
      r'.rest = [] := by
  obtain ⟨split, es, r, u, delivers, here, noTag, closed⟩ := outside
  obtain ⟨settled, utf8⟩ := delivers.settled rfl
  have data : ∀ b ∈ Utf8.encode u, isData b = true := data_encode noTag
  obtain ⟨s, begins⟩ := exists_encode_text a
  have ended := ended_outside delivers here noTag (s ++ Utf8.encode ys)
  rw [← List.cons_append, ← begins] at ended
  rw [Utf8.encode_append] at here
  obtain ⟨hs, rfl, rest⟩ := exists_run_cut delivers utf8 data here whole atEnd
  have noMark : ∀ c ∈ a.text.head?, c ≠ mark := by
    cases a <;> simp [Aside.text, mark]
  have cuts : Stops (Utf8.encode a.text ++ Utf8.encode ys) := by
    rw [begins]
    exact stops_tag _
  have more : ∀ b ∈ (Utf8.encode ys).takeWhile isData, isData b = true :=
    List.all_eq_true.mp List.all_takeWhile
  obtain ⟨m₁, front⟩ := delivers_inserted split delivers here noMark ended
  obtain ⟨m₂, left⟩ := delivers_run utf8 data cuts m₁
  obtain ⟨m₃, aside⟩ := delivers_aside settled plain (Utf8.encode ys) m₂
  obtain ⟨m₄, right⟩ := delivers_run utf8 more (stops_dropWhile (Utf8.encode ys)) m₃
  rw [List.takeWhile_append_dropWhile] at right
  obtain ⟨r', back, atEnd'⟩ := rest m₄
  exact ⟨es, u, _, hs, r', closed, rfl,
    front.append (left.append (aside.append (right.append back))), atEnd'⟩

theorem exists_delivers_run {d : String} {xs ys : List Char} (split : d.toList = xs ++ ys)
    {es gs : List Event} {r rEnd : Reader} (delivers : Delivers (.ofText d) es r)
    (fresh : ∀ e ∈ es.getLast?, e.isText = false) {u : Bytes} (data : ∀ b ∈ u, isData b = true)
    (here : r.rest = u ++ Utf8.encode ys) (whole : Delivers (.ofText d) gs rEnd)
    (atEnd : rEnd.rest = []) {zs : List Char} (noTag : '<' ∉ zs) (noMark : mark ∉ zs) :
    ∃ hs r', gs = es ++ (textEvents (u ++ (Utf8.encode ys).takeWhile isData) ++ hs) ∧
      Delivers (.ofText (inserted xs zs ys))
        (es ++ (textEvents (u ++ (Utf8.encode zs ++ (Utf8.encode ys).takeWhile isData)) ++ hs)) r' ∧
      r'.rest = [] := by
  obtain ⟨-, utf8⟩ := delivers.settled rfl
  obtain ⟨hs, rfl, rest⟩ := exists_run_cut delivers utf8 data here whole atEnd
  have first : ∀ c ∈ zs.head?, c ≠ mark := by
    rintro c head rfl
    exact noMark (List.mem_of_mem_head? head)
  have ended : Delivers.Ended es (u ++ (Utf8.encode zs ++ Utf8.encode ys)) := by
    intro e last isText
    rw [fresh e last] at isText
    cases isText
  have more : ∀ b ∈ (Utf8.encode ys).takeWhile isData, isData b = true :=
    List.all_eq_true.mp List.all_takeWhile
  have joined := List.forall_mem_append.mpr
    ⟨data, List.forall_mem_append.mpr ⟨data_encode noTag, more⟩⟩
  obtain ⟨m₁, front⟩ := delivers_inserted split delivers here first ended
  obtain ⟨m₂, text⟩ := delivers_run utf8 joined (stops_dropWhile (Utf8.encode ys)) m₁
  rw [List.append_assoc, List.append_assoc, List.takeWhile_append_dropWhile] at text
  obtain ⟨r', back, atEnd'⟩ := rest m₂
  exact ⟨hs, r', rfl, front.append (text.append back), atEnd'⟩

theorem exists_run_before {r₀ r : Reader} {es : List Event} (delivers : Delivers r₀ es r) :
    ∃ es' r' raw last, Delivers r₀ es' r' ∧ (∀ e ∈ es'.getLast?, e.isText = false) ∧
      (∀ b ∈ raw, isData b = true) ∧ r'.rest = raw ++ r.rest ∧ es = es' ++ last ∧
      last.length = (textEvents raw).length := by
  by_cases text : ∃ e ∈ es.getLast?, e.isText = true
  · obtain ⟨e, last, isText⟩ := text
    obtain ⟨es, rfl⟩ := List.getLast?_eq_some_iff.mp last
    obtain ⟨r', front, single⟩ := delivers.of_append
    cases single with
    | next first done =>
      cases done
      obtain ⟨raw, nonempty, data, run⟩ := Reader.exists_run_of_next first isText
      refine ⟨es, r', raw, [e], front, ?_, data, run, rfl, by simp [textEvents, nonempty]⟩
      intro e' last'
      obtain ⟨-, -, -, starts, -, -⟩ := Reader.next_local first
      by_contra isText'
      exact starts.mp isText (front.stops_of_text last' (by simpa using isText'))
  · refine ⟨es, r, [], [], delivers, ?_, by simp, rfl, by simp, rfl⟩
    intro e last
    by_contra isText
    exact text ⟨e, last, by simpa using isText⟩

theorem exists_delivers_blank {d : String} {xs ys : List Char} (beside : BesideTag d xs ys)
    {gs : List Event} {rEnd : Reader} (whole : Delivers (.ofText d) gs rEnd)
    (atEnd : rEnd.rest = []) {zs : List Char} (noTag : '<' ∉ zs) (noMark : mark ∉ zs) :
    ∃ es w w' hs r', gs = es ++ (textEvents w ++ hs) ∧
      Delivers (.ofText (inserted xs zs ys)) (es ++ (textEvents w' ++ hs)) r' ∧ r'.rest = [] ∧
      ((∃ e ∈ es.getLast?, e.isTag = true) ∧ w' = Utf8.encode zs ++ w ∨
        (∃ e ∈ hs.head?, e.isTag = true) ∧ w' = w ++ Utf8.encode zs) := by
  obtain ⟨split, es, r, delivers, here, ⟨e, last, tag⟩ | ⟨e, r', next, tag⟩⟩ := beside
  · have fresh : ∀ e ∈ es.getLast?, e.isText = false := by
      intro e' last'
      obtain rfl : e = e' := Option.mem_unique last last'
      exact not_isText_of_isTag tag
    obtain ⟨hs, r', rfl, longer, atEnd'⟩ :=
      exists_delivers_run split delivers fresh (u := []) (by simp) here whole atEnd noTag noMark
    exact ⟨es, _, _, hs, r', rfl, longer, atEnd', .inl ⟨⟨e, last, tag⟩, rfl⟩⟩
  · -- The text that the blanks join is the last event so far, or there is none.
    obtain ⟨-, -, -, starts, -, -⟩ := Reader.next_local next
    have stops : Stops (Utf8.encode ys) := by
      rw [← here]
      by_contra runs
      have text := starts.mpr runs
      rw [not_isText_of_isTag tag] at text
      cases text
    have nothing : (Utf8.encode ys).takeWhile isData = [] :=
      (takeWhile_run (x := []) (by simp) stops).1
    obtain ⟨fs, rfl, behind⟩ := delivers.exists_rest whole atEnd
    obtain ⟨fs, rfl⟩ : ∃ fs', fs = e :: fs' := by
      cases behind with
      | done r =>
        rw [next_of_end atEnd] at next
        cases next
      | next first rest =>
        rw [next] at first
        cases first
        exact ⟨_, rfl⟩
    obtain ⟨es, r₀, raw, last, front, fresh, data, run, rfl, same⟩ := exists_run_before delivers
    rw [here] at run
    obtain ⟨hs, r₁, joined, longer, atEnd'⟩ :=
      exists_delivers_run split front fresh data run whole atEnd noTag noMark
    rw [nothing, List.append_nil] at joined longer
    have behind : e :: fs = hs := by
      rw [List.append_assoc, List.append_cancel_left_eq] at joined
      exact (List.append_inj joined same).2
    refine ⟨es, raw, _, hs, r₁, joined, by simpa using longer, atEnd', .inr ⟨⟨e, ?_, tag⟩, rfl⟩⟩
    rw [← behind]
    rfl

end Positions

end XmlDelta.Markup
