import XmlDelta.Proofs.Markup.Locality

set_option autoImplicit false

namespace XmlDelta.Markup

open XmlDelta.Text

section Named

def items (s : Bytes) : List Item :=
  match _h : scan s with
  | .ok (some x) => x.item :: items x.rest
  | _ => []
termination_by s.length
decreasing_by exact (scan_size _h).1

def Item.named? : Item → Option Encoding
  | .declaration content => declaredEncoding content
  | _ => none

/-- The encodings that the declarations of an input name by a label, wherever they stand. -/
def namedEncodings (s : Bytes) : List Encoding :=
  (items s).filterMap Item.named?

theorem items_of_scan {s : Bytes} {x : Scanned} (scanned : scan s = .ok (some x)) :
    items s = x.item :: items x.rest := by
  rw [items]
  split
  · rename_i y found
    rw [scanned] at found
    cases found
    rfl
  · rename_i other
    exact absurd scanned (other x)

theorem mem_namedEncodings_of_scan {s : Bytes} {x : Scanned} (scanned : scan s = .ok (some x))
    {e : Encoding} :
    e ∈ namedEncodings s ↔ x.item.named? = some e ∨ e ∈ namedEncodings x.rest := by
  simp only [namedEncodings, List.mem_filterMap, items_of_scan scanned, List.mem_cons,
    or_and_right, exists_or, exists_eq_left]

theorem namedEncodings_run {x s : Bytes} (data : ∀ b ∈ x, isData b = true) (stops : Stops s) :
    namedEncodings (x ++ s) = namedEncodings s := by
  by_cases empty : x = []
  · rw [empty, List.nil_append]
  · rw [namedEncodings, items_of_scan (scan_text empty data stops)]
    rfl

theorem namedEncodings_append {x : Bytes} (data : ∀ b ∈ x, isData b = true) (s : Bytes) :
    namedEncodings (x ++ s) = namedEncodings s := by
  have run : ∀ b ∈ s.takeWhile isData, isData b = true := List.all_eq_true.mp List.all_takeWhile
  have joined := namedEncodings_run (List.forall_mem_append.mpr ⟨data, run⟩) (stops_dropWhile s)
  have alone := namedEncodings_run run (stops_dropWhile s)
  rw [List.append_assoc, List.takeWhile_append_dropWhile] at joined
  rw [List.takeWhile_append_dropWhile] at alone
  exact joined.trans alone.symm

end Named

namespace Reader

def settle (r : Reader) (settled : Bool) : Reader :=
  { r with settled }

structure StaysUtf8 (r : Reader) : Prop where
  encoding : r.encoding = .utf8
  named : ∀ e ∈ namedEncodings r.rest, e = .utf8

variable [EastAsian] {r : Reader}

omit [EastAsian] in
theorem declaredEncoding_of_declared? {content : Bytes} {e : Encoding}
    (declared : r.declared? content = some e) : declaredEncoding content = some e := by
  unfold declared? at declared
  split at declared
  · cases declared
  · exact declared

theorem exists_read_declaration (utf8 : r.encoding = .utf8) {content : Bytes}
    (named : ∀ e, declaredEncoding content = some e → e = .utf8) (size : Nat) (rest : Bytes) :
    ∃ c, r.read ⟨.declaration content, size, rest⟩ =
      .ok (.ignored, (r.moved rest (r.offset + size)).settle c) := by
  cases declared : r.declared? content with
  | none => exact ⟨r.settled, read_declaration_of_none declared size rest⟩
  | some e =>
    have known : e = .utf8 := named e (declaredEncoding_of_declared? declared)
    refine ⟨true, ?_⟩
    rw [read_declaration_of_some declared, known, ← utf8]
    rfl

theorem StaysUtf8.read_settle (stays : r.StaysUtf8) {x : Scanned}
    (scanned : scan r.rest = .ok (some x)) (b : Bool) :
    ∃ c, (r.settle b).read x = (r.read x).map (Prod.map id (settle · c)) := by
  have named := fun e h => stays.named e ((mem_namedEncodings_of_scan scanned).mpr (.inl h))
  obtain ⟨item, size, rest⟩ := x
  cases item with
  | declaration content =>
    obtain ⟨c, read⟩ := exists_read_declaration stays.encoding named size rest
    obtain ⟨c', read'⟩ := exists_read_declaration (r := r.settle b) stays.encoding named size rest
    refine ⟨c', ?_⟩
    rw [read, read']
    rfl
  | closing name =>
    refine ⟨b, ?_⟩
    simp only [Reader.read, settle]
    split
    · rfl
    · split <;> rfl
  | _ => exact ⟨b, rfl⟩

theorem StaysUtf8.next_settle (stays : r.StaysUtf8) (b : Bool) :
    ∃ c, (r.settle b).next = r.next.map (Option.map (Prod.map id (settle · c))) := by
  have same : (r.settle b).rest = r.rest := rfl
  unfold Reader.next
  rw [same]
  cases scanned : scan r.rest with
  | error f => exact ⟨b, rfl⟩
  | ok item =>
    cases item with
    | none => exact ⟨b, rfl⟩
    | some x =>
      obtain ⟨c, read⟩ := stays.read_settle scanned b
      refine ⟨c, ?_⟩
      simp only [read]
      cases r.read x <;> rfl

theorem StaysUtf8.next (stays : r.StaysUtf8) {r' : Reader} {e : Event}
    (first : r.next = .ok (some (e, r'))) : r'.StaysUtf8 := by
  obtain ⟨y, scanned, read⟩ := exists_of_next first
  have named := fun e => mem_namedEncodings_of_scan (e := e) scanned
  refine ⟨?_, fun e inside => stays.named e ((named e).mpr (.inr (read_rest read ▸ inside)))⟩
  obtain ⟨same, -⟩ | ⟨content, item, declared⟩ := mode_of_read read
  · exact same.trans stays.encoding
  · refine stays.named _ ((named _).mpr (.inl ?_))
    rw [item]
    exact declaredEncoding_of_declared? declared

theorem eventsFrom_of_fault {f : DocumentFault} (fault : r.next = .error f) (seen : List Event) :
    eventsFrom seen r = (seen.reverse, some f) := by
  rw [eventsFrom]
  split
  · rename_i f' fault'
    rw [fault] at fault'
    cases fault'
    rfl
  · simp_all
  · simp_all

theorem StaysUtf8.eventsFrom_settle (stays : r.StaysUtf8) (seen : List Event) (b : Bool) :
    eventsFrom seen (r.settle b) = eventsFrom seen r := by
  fun_induction eventsFrom seen r generalizing b with
  | case1 seen r f fault =>
    obtain ⟨c, next⟩ := stays.next_settle b
    rw [fault] at next
    exact eventsFrom_of_fault next seen
  | case2 seen r last =>
    obtain ⟨c, next⟩ := stays.next_settle b
    rw [last] at next
    exact eventsFrom_end next seen
  | case3 seen r e r' first ih =>
    obtain ⟨c, next⟩ := stays.next_settle b
    rw [first] at next
    rw [eventsFrom_next next]
    exact ih (stays.next first) c

end Reader

end XmlDelta.Markup
