import XmlDelta.Jobs.Json
import XmlDelta.Proofs.Json.Layout

set_option autoImplicit false

namespace XmlDelta.Jobs

open XmlDelta.Compare (Job)
open XmlDelta.Json

structure Reads {α : Type} (item : List Char → Reading α) (text : List Char) (a : α) : Prop where
  solid : ∃ c r, text = c :: r ∧ isSpace c = false ∧ c ≠ ']'
  back : ∀ rest, Apart rest → item (text ++ rest) = .ok (a, rest)

section Lists

variable {α : Type} {item : List Char → Reading α} {write : α → List Char}

theorem nextItem_first {lead text : List Char} {a : α} (blank : lead.all isSpace = true)
    (reads : Reads item text a) (rest : List Char) :
    nextItem true (lead ++ (text ++ rest)) = .ok (some (text ++ rest)) := by
  obtain ⟨c, r, rfl, solid, unclosed⟩ := reads.solid
  rw [nextItem, skipSpace_append blank, List.cons_append, skipSpace_cons solid]
  simp only [unclosed, if_false, if_true]

theorem nextItem_later {lead text : List Char} {a : α} (blank : lead.all isSpace = true)
    (reads : Reads item text a) (rest : List Char) :
    nextItem false (',' :: (lead ++ (text ++ rest))) = .ok (some (text ++ rest)) := by
  obtain ⟨c, r, rfl, solid, unclosed⟩ := reads.solid
  rw [nextItem, skipSpace_cons (by decide)]
  simp only [skipSpace_append blank, List.cons_append, skipSpace_cons solid]
  simp [unclosed]

theorem nextItem_end (first : Bool) {lead : List Char} (blank : lead.all isSpace = true)
    (rest : List Char) : nextItem first (lead ++ ']' :: rest) = .ok none := by
  rw [nextItem, skipSpace_append blank, skipSpace_cons (by decide)]
  rfl

theorem endList_end {lead : List Char} (blank : lead.all isSpace = true) (rest : List Char) :
    endList (lead ++ ']' :: rest) = .ok rest := by
  rw [endList, skipSpace_append blank, skipSpace_cons (by decide)]
  rfl

theorem readItems_end {n : Nat} {seen : List α} {s r : List Char}
    (none : nextItem seen.isEmpty s = .ok none) (closed : endList s = .ok r) :
    readItems item (n + 1) seen s = .ok (seen.reverse, r) := by
  simp only [readItems, none, closed, bind, Except.bind, pure, Except.pure]

theorem readItems_next {n : Nat} {seen : List α} {first : Bool} {s t r : List Char} {a : α}
    (place : seen.isEmpty = first) (next : nextItem first s = .ok (some t))
    (read : item t = .ok (a, r)) :
    readItems item (n + 1) seen s = readItems item n (a :: seen) r := by
  simp only [readItems, place, next, read, bind, Except.bind]

theorem readItems_more {lead close : List Char} (blank : lead.all isSpace = true)
    (blankClose : close.all isSpace = true) {as : List α}
    (reads : ∀ a ∈ as, Reads item (write a) a) {fuel : Nat} (enough : as.length < fuel)
    {seen : List α} (later : seen.isEmpty = false) (rest : List Char) :
    readItems item fuel seen (moreMembers lead (as.map write) ++ (close ++ ']' :: rest)) =
      .ok (seen.reverse ++ as, rest) := by
  induction as generalizing fuel seen with
  | nil =>
    obtain ⟨n, rfl⟩ := Nat.exists_eq_add_one.mpr (Nat.zero_lt_of_lt enough)
    rw [List.append_nil]
    exact readItems_end (nextItem_end _ blankClose rest) (endList_end blankClose rest)
  | cons a as ih =>
    obtain ⟨n, rfl⟩ := Nat.exists_eq_add_one.mpr (Nat.zero_lt_of_lt enough)
    have first := reads a List.mem_cons_self
    have shape : moreMembers lead ((a :: as).map write) ++ (close ++ ']' :: rest) =
        ',' :: (lead ++ (write a ++ (moreMembers lead (as.map write) ++ (close ++ ']' :: rest)))) := by
      simp [moreMembers]
    have apart := apart_moreMembers (apart_close blankClose (.inl rfl) rest) lead (as.map write)
    rw [shape, readItems_next later (nextItem_later blank first _) (first.back _ apart),
      ih (fun b inside => reads b (List.mem_cons_of_mem _ inside)) (Nat.lt_of_succ_lt_succ enough)
        List.isEmpty_cons]
    simp

theorem readItems_members {lead close : List Char} (blank : lead.all isSpace = true)
    (blankClose : close.all isSpace = true) {a : α} {as : List α}
    (reads : ∀ b ∈ a :: as, Reads item (write b) b) {fuel : Nat} (enough : as.length + 1 < fuel)
    (rest : List Char) :
    readItems item fuel []
        (lead ++ (write a ++ (moreMembers lead (as.map write) ++ (close ++ ']' :: rest)))) =
      .ok (a :: as, rest) := by
  obtain ⟨n, rfl⟩ := Nat.exists_eq_add_one.mpr (Nat.zero_lt_of_lt enough)
  have first := reads a List.mem_cons_self
  have apart := apart_moreMembers (apart_close blankClose (.inl rfl) rest) lead (as.map write)
  rw [readItems_next List.isEmpty_nil (nextItem_first blank first _) (first.back _ apart)]
  exact readItems_more blank blankClose (fun b inside => reads b (List.mem_cons_of_mem _ inside))
    (Nat.lt_of_succ_lt_succ enough) rfl rest

theorem readList_append {before : List Char} (blank : before.all isSpace = true)
    (indent depth : Nat) {as : List α} (reads : ∀ a ∈ as, Reads item (write a) a)
    (rest : List Char) :
    readList item (before ++ (bracketed '[' ']' indent depth (as.map write) ++ rest)) =
      .ok (as, rest) := by
  rcases as with _ | ⟨a, as⟩
  · rw [readList, skipSpace_append blank]
    rfl
  · have enough := length_le_bracketed indent depth ((a :: as).map write)
    have shape : bracketed '[' ']' indent depth ((a :: as).map write) ++ rest =
        '[' :: (('\n' :: spaces (indent * (depth + 1))) ++ (write a ++
          (moreMembers ('\n' :: spaces (indent * (depth + 1))) (as.map write) ++
            (('\n' :: spaces (indent * depth)) ++ ']' :: rest)))) := by
      rw [List.map_cons, bracketed_cons]
      simp
    have longer : as.length + 1 <
        (before ++ (bracketed '[' ']' indent depth ((a :: as).map write) ++ rest)).length + 1 := by
      simp only [List.length_append, List.length_map, List.length_cons] at enough ⊢
      omega
    rw [readList, skipSpace_append blank, shape, skipSpace_cons (by decide)]
    simp only [if_true]
    rw [← shape]
    exact readItems_members (lineStart_isSpace _) (lineStart_isSpace _) reads longer rest

end Lists

theorem readString_append {lead : List Char} (blank : lead.all isSpace = true) (s : String)
    (rest : List Char) : readString (lead ++ (stringText s ++ rest)) = .ok (s, rest) := by
  rw [readString, skipSpace_append blank, stringText_append, skipSpace_cons (by decide)]
  exact readText_escape s rest

theorem reads_string (s : String) : Reads readString (stringText s) s :=
  ⟨⟨'"', _, rfl, by decide, by decide⟩, fun rest _ => readString_append List.all_nil s rest⟩

section Fields

variable {lead : List Char} (blank : lead.all isSpace = true)

include blank

theorem nextKey_first (key : String) (rest : List Char) :
    nextKey true (lead ++ (stringText key ++ rest)) = .ok (some (key, rest)) := by
  rw [nextKey, skipSpace_append blank, stringText_append, skipSpace_cons (by decide)]
  simp [readText_escape, Except.map]

theorem nextKey_later (key : String) (rest : List Char) :
    nextKey false (',' :: (lead ++ (stringText key ++ rest))) = .ok (some (key, rest)) := by
  rw [nextKey, skipSpace_cons (by decide)]
  simp only [skipSpace_append blank, stringText_append]
  rw [skipSpace_cons (by decide)]
  simp [readText_escape, Except.map]

theorem nextKey_end (first : Bool) (rest : List Char) :
    nextKey first (lead ++ '\x7d' :: rest) = .ok none := by
  rw [nextKey, skipSpace_append blank, skipSpace_cons (by decide)]
  rfl

theorem endObject_end (rest : List Char) : endObject (lead ++ '\x7d' :: rest) = .ok rest := by
  rw [endObject, skipSpace_append blank, skipSpace_cons (by decide)]
  rfl

end Fields

theorem readColon_append (rest : List Char) : readColon (':' :: rest) = .ok rest := by
  rw [readColon, skipSpace_cons (by decide)]
  rfl

theorem readFields_end {n : Nat} {first : Bool} {f : Fields} {j : Job} {s r : List Char}
    (none : nextKey first s = .ok none) (whole : f.job = .ok j) (closed : endObject s = .ok r) :
    readFields (n + 1) first f s = .ok (j, r) := by
  simp only [readFields, none, whole, closed, bind, Except.bind, pure, Except.pure]

theorem readFields_next {n : Nat} {first : Bool} {f g : Fields} {key : String}
    {s r r' : List Char} (next : nextKey first s = .ok (some (key, r)))
    (read : readField f key r = .ok (g, r')) :
    readFields (n + 1) first f s = readFields n false g r' := by
  simp only [readFields, next, read, bind, Except.bind]

theorem readColon_string (s : String) (rest : List Char) :
    (readColon (':' :: ' ' :: (stringText s ++ rest)) >>= readString) = .ok (s, rest) := by
  have blank : [' '].all isSpace = true := by decide
  rw [readColon_append]
  exact readString_append blank s rest

theorem readColon_list {α : Type} {item : List Char → Reading α} {write : α → List Char}
    (indent depth : Nat) {as : List α} (reads : ∀ a ∈ as, Reads item (write a) a)
    (rest : List Char) :
    (readColon (':' :: ' ' :: (bracketed '[' ']' indent depth (as.map write) ++ rest)) >>=
      readList item) = .ok (as, rest) := by
  have blank : [' '].all isSpace = true := by decide
  rw [readColon_append]
  exact readList_append blank indent depth reads rest

theorem readField_oldFile {f : Fields} (fresh : f.oldFile = none) (s : String) (r : List Char) :
    readField f "old_file" (':' :: ' ' :: (stringText s ++ r)) =
      .ok ({ f with oldFile := some s }, r) := by
  rw [readField, if_pos rfl, fresh, readColon_string]
  rfl

theorem readField_newFile {f : Fields} (fresh : f.newFile = none) (s : String) (r : List Char) :
    readField f "new_file" (':' :: ' ' :: (stringText s ++ r)) =
      .ok ({ f with newFile := some s }, r) := by
  rw [readField, if_neg (by decide), if_pos rfl, fresh, readColon_string]
  rfl

theorem readField_tags {f : Fields} (fresh : f.tags = none) (indent depth : Nat)
    (tags : List String) (r : List Char) :
    readField f "tags"
        (':' :: ' ' :: (bracketed '[' ']' indent depth (tags.map stringText) ++ r)) =
      .ok ({ f with tags := some tags }, r) := by
  rw [readField, if_neg (by decide), if_neg (by decide), if_pos rfl, fresh,
    readColon_list indent depth fun s _ => reads_string s]
  rfl

def fieldsText (lead close : List Char) (indent depth : Nat) (j : Job) (rest : List Char) :
    List Char :=
  lead ++ (stringText "old_file" ++ ':' :: ' ' :: (stringText j.oldFile ++
    ',' :: (lead ++ (stringText "new_file" ++ ':' :: ' ' :: (stringText j.newFile ++
      ',' :: (lead ++ (stringText "tags" ++ ':' :: ' ' ::
        (bracketed '[' ']' indent depth (j.tags.map stringText) ++ (close ++ '\x7d' :: rest)))))))))

theorem readFields_fieldsText {lead close : List Char} (blank : lead.all isSpace = true)
    (blankClose : close.all isSpace = true) (n indent depth : Nat) (j : Job) (rest : List Char) :
    readFields (n + 4) true {} (fieldsText lead close indent depth j rest) = .ok (j, rest) := by
  rw [fieldsText, readFields_next (nextKey_first blank _ _) (readField_oldFile rfl _ _),
    readFields_next (nextKey_later blank _ _) (readField_newFile rfl _ _),
    readFields_next (nextKey_later blank _ _) (readField_tags rfl _ _ _ _)]
  exact readFields_end (nextKey_end blankClose false rest) rfl (endObject_end blankClose rest)

theorem chars_jobValue (indent depth : Nat) (j : Job) (rest : List Char) :
    (jobValue j).chars indent depth ++ rest =
      '\x7b' :: fieldsText ('\n' :: spaces (indent * (depth + 1))) ('\n' :: spaces (indent * depth))
        indent (depth + 1) j rest := by
  have tags : Value.charsOfAll indent (depth + 2) (j.tags.map .string) = j.tags.map stringText := by
    rw [Value.charsOfAll_eq_map, List.map_map]
    rfl
  simp only [jobValue, Value.chars, Value.charsOfFields, tags, bracketed_cons, moreMembers,
    List.flatMap_cons, List.flatMap_nil, fieldsText, List.append_assoc, List.cons_append,
    List.nil_append]

theorem readJob_chars (indent depth : Nat) (j : Job) (rest : List Char) :
    readJob ((jobValue j).chars indent depth ++ rest) = .ok (j, rest) := by
  rw [chars_jobValue, readJob, skipSpace_cons (by decide)]
  simp only [if_true, (by decide : ¬ '\x7b' = '['), if_false]
  have blank := lineStart_isSpace (indent * (depth + 1))
  generalize '\n' :: spaces (indent * (depth + 1)) = lead at blank ⊢
  obtain ⟨n, enough⟩ : ∃ n, (fieldsText lead ('\n' :: spaces (indent * depth)) indent (depth + 1) j
      rest).length + 1 = n + 4 := by
    refine Nat.exists_eq_add_of_le' ?_
    simp only [fieldsText, List.length_append, List.length_cons]
    omega
  rw [enough]
  exact readFields_fieldsText blank (lineStart_isSpace _) n indent (depth + 1) j rest

theorem reads_job (indent depth : Nat) (j : Job) :
    Reads readJob ((jobValue j).chars indent depth) j := by
  have shape := chars_jobValue indent depth j []
  rw [List.append_nil] at shape
  exact ⟨⟨_, _, shape, by decide, by decide⟩, fun rest _ => readJob_chars indent depth j rest⟩

theorem ofJson_toJson (jobs : List Job) : ofJson (toJson jobs) = .ok jobs := by
  have text : (toJson jobs).toList =
      bracketed '[' ']' 4 0 (jobs.map fun j => (jobValue j).chars 4 1) ++ [] := by
    rw [toJson, Value.text, String.toList_ofList, Value.chars, Value.charsOfAll_eq_map, List.map_map,
      List.append_nil]
    rfl
  have read : readList readJob (toJson jobs).toList = .ok (jobs, []) :=
    text ▸ readList_append List.all_nil 4 0 (fun j _ => reads_job 4 1 j) []
  rw [ofJson, read]
  rfl

end XmlDelta.Jobs
