import XmlDelta.Jobs.Toml
import XmlDelta.Proofs.Toml.Document

set_option autoImplicit false

namespace XmlDelta.Jobs

open XmlDelta.Compare (Job)
open XmlDelta.Toml

section Values

variable (ss : List String)

def arrayOf : Value :=
  .array (ss.map .string)

theorem readValue_string (s : String) (r : List Char) :
    readValue (stringText s ++ '\n' :: r) = .ok (.string s, '\n' :: r) :=
  readNested_string depthLimit s (by decide) r

theorem exists_listText_cons (items : List (List Char)) :
    ∃ c r, listText items = c :: r ∧ isBlank c = false := by
  rcases items with _ | ⟨i, _ | ⟨j, is⟩⟩
  · exact ⟨'[', _, rfl, by decide⟩
  · exact ⟨'[', _, rfl, by decide⟩
  · exact ⟨'[', _, rfl, by decide⟩

theorem readValue_list (r : List Char) :
    readValue (listText (ss.map stringText) ++ '\n' :: r) = .ok (arrayOf ss, '\n' :: r) := by
  rw [readValue, depthLimit, arrayOf]
  rcases ss with _ | ⟨s, _ | ⟨t, ss⟩⟩
  · rfl
  · have shape : listText ([s].map stringText) ++ '\n' :: r =
        '[' :: ([] ++ (stringText s ++ ']' :: '\n' :: r)) := by
      simp [listText]
    rw [shape, readNested_array, readItems_string List.all_nil s (by decide) (by decide)]
    rfl
  · have lines : listText ((s :: t :: ss).map stringText) =
        '[' :: '\n' :: ((s :: t :: ss).map stringText).flatMap itemLine ++ [']'] := rfl
    have shape : listText ((s :: t :: ss).map stringText) ++ '\n' :: r =
        '[' :: '\n' :: (((s :: t :: ss).map stringText).flatMap itemLine ++ ']' :: '\n' :: r) := by
      simp only [lines, List.cons_append, List.append_assoc, List.nil_append]
    have longer (is : List (List Char)) : is.length ≤ (is.flatMap itemLine).length := by
      induction is with
      | nil => exact Nat.le_refl _
      | cons i is ih =>
        simp only [List.flatMap_cons, List.length_append, itemLine, List.length_cons] at ih ⊢
        omega
    have enough := longer ((s :: t :: ss).map stringText)
    rw [shape, readNested_array, readItems_lines]
    · rfl
    · simp only [List.length_map, List.length_cons, List.length_append] at enough ⊢
      omega

end Values

def statementsOf (j : Job) : List Statement :=
  [.nextTable ⟨[], "comparison"⟩, .entry ⟨[], "old_file"⟩ (.string j.oldFile),
    .entry ⟨[], "new_file"⟩ (.string j.newFile), .entry ⟨[], "tags"⟩ (arrayOf j.tags)]

theorem line_string {name : String} (bare : name.toList.all isBare = true) (nonempty : name ≠ "")
    (s : String) :
    Line (name.toList ++ ' ' :: '=' :: ' ' :: stringText s) (.entry ⟨[], name⟩ (.string s)) := by
  refine line_entry bare nonempty ?_ (readValue_string s)
  obtain ⟨q, r, shape, rfl | rfl⟩ := exists_stringText_cons s
  · exact ⟨_, r, shape, by decide⟩
  · exact ⟨_, r, shape, by decide⟩

theorem line_list {name : String} (bare : name.toList.all isBare = true) (nonempty : name ≠ "")
    (ss : List String) :
    Line (name.toList ++ ' ' :: '=' :: ' ' :: listText (ss.map stringText))
      (.entry ⟨[], name⟩ (arrayOf ss)) :=
  line_entry bare nonempty (exists_listText_cons _) (readValue_list ss)

theorem assignment_append (name : String) (value r : List Char) :
    assignment name value ++ r = [] ++ ((name.toList ++ ' ' :: '=' :: ' ' :: value) ++ '\n' :: r) := by
  simp [assignment]

theorem header_append (r : List Char) :
    "[[comparison]]\n".toList ++ r =
      ('[' :: '[' :: ("comparison".toList ++ [']', ']'])) ++ '\n' :: r := by
  have header : "[[comparison]]\n".toList =
      ('[' :: '[' :: ("comparison".toList ++ [']', ']'])) ++ ['\n'] := by
    decide +kernel
  rw [header, List.append_assoc, List.singleton_append]

theorem readStatements_jobLines (j : Job) {gap : List Char} (blank : gap.all isGap = true) (n : Nat)
    (r : List Char) :
    readStatements (n + 4) (gap ++ (jobLines j ++ r)) =
      (readStatements n r).map (statementsOf j ++ ·) := by
  unfold jobLines
  rw [List.append_assoc, List.append_assoc, List.append_assoc, header_append,
    readStatements_line (line_nextTable (by decide +kernel) (by decide)) blank, assignment_append,
    readStatements_line (line_string (by decide +kernel) (by decide) _) List.all_nil, assignment_append,
    readStatements_line (line_string (by decide +kernel) (by decide) _) List.all_nil, assignment_append,
    readStatements_line (line_list (by decide +kernel) (by decide) _) List.all_nil]
  cases readStatements n r with
  | error f => rfl
  | ok sts => rfl

def moreLines (jobs : List Job) : List Char :=
  jobs.flatMap fun j => '\n' :: jobLines j

theorem flatten_jobLines (j : Job) (jobs : List Job) :
    (((j :: jobs).map jobLines).intersperse ['\n']).flatten = jobLines j ++ moreLines jobs := by
  induction jobs generalizing j with
  | nil => simp [moreLines]
  | cons k jobs ih =>
    have next := ih k
    rw [List.map_cons] at next
    rw [List.map_cons, List.map_cons, List.intersperse_cons_cons, List.flatten_cons,
      List.flatten_cons, next]
    simp [moreLines]

theorem readStatements_moreLines {jobs : List Job} {fuel : Nat} (enough : 4 * jobs.length < fuel) :
    readStatements fuel (moreLines jobs) = .ok (jobs.flatMap statementsOf) := by
  induction jobs generalizing fuel with
  | nil =>
    obtain ⟨n, rfl⟩ := Nat.exists_eq_add_one.mpr (Nat.zero_lt_of_lt enough)
    exact readStatements_end List.all_nil n
  | cons j jobs ih =>
    rw [List.length_cons] at enough
    obtain ⟨n, rfl⟩ : ∃ n, fuel = n + 4 := ⟨fuel - 4, by omega⟩
    have line : ['\n'].all isGap = true := by decide
    have shape : moreLines (j :: jobs) = ['\n'] ++ (jobLines j ++ moreLines jobs) := rfl
    rw [shape, readStatements_jobLines j line, ih (by omega)]
    rfl

theorem four_le_length_assignment (name : String) (value : List Char) :
    4 ≤ (assignment name value).length := by
  simp only [assignment, List.length_append, List.length_cons]
  omega

theorem four_le_length_jobLines (j : Job) : 4 ≤ (jobLines j).length := by
  unfold jobLines
  rw [List.length_append]
  exact (four_le_length_assignment _ _).trans (Nat.le_add_left _ _)

theorem readStatements_jobs (j : Job) (jobs : List Job) {fuel : Nat}
    (enough : (jobLines j ++ moreLines jobs).length < fuel) :
    readStatements fuel (jobLines j ++ moreLines jobs) = .ok ((j :: jobs).flatMap statementsOf) := by
  have more : 4 * jobs.length ≤ (moreLines jobs).length := by
    clear enough
    induction jobs with
    | nil => exact Nat.le_refl _
    | cons k jobs ih =>
      have four := four_le_length_jobLines k
      simp only [moreLines, List.flatMap_cons, List.length_append, List.length_cons] at ih ⊢
      omega
  have four := four_le_length_jobLines j
  rw [List.length_append] at enough
  obtain ⟨n, rfl⟩ : ∃ n, fuel = n + 4 := ⟨fuel - 4, by omega⟩
  have noGap : ([] : List Char).all isGap = true := rfl
  have read := readStatements_jobLines j noGap n (moreLines jobs)
  rw [List.nil_append] at read
  rw [read, readStatements_moreLines (by omega)]
  rfl

def entriesOf (j : Job) : Keyed Value :=
  [("old_file", .string j.oldFile), ("new_file", .string j.newFile), ("tags", arrayOf j.tags)]

def draftOf : List Job → Draft
  | [] => {}
  | jobs => ⟨⟨.header, [("comparison", .tables (jobs.map entriesOf))]⟩, ["comparison"]⟩

def draftWith (done : List (Keyed Value)) (entries : Keyed Value) : Draft :=
  ⟨⟨.header, [("comparison", .tables (done ++ [entries]))]⟩, ["comparison"]⟩

theorem step_entry (done : List (Keyed Value)) {entries : Keyed Value} {name : String}
    (fresh : Keyed.get? name entries = none) (v : Value) :
    (draftWith done entries).step (.entry ⟨[], name⟩ v) =
      .ok (draftWith done (Keyed.set name v entries)) := by
  have front : (done ++ [entries]).dropLast = done := List.dropLast_concat
  simp [Draft.step, draftWith, Table.change, Table.add, Keyed.get?, fresh, front, Table.set,
    Keyed.set, bind, Except.bind, pure, Except.pure, Except.map]

theorem step_nextTable (jobs : List Job) :
    (draftOf jobs).step (.nextTable ⟨[], "comparison"⟩) = .ok (draftWith (jobs.map entriesOf) []) := by
  cases jobs with
  | nil => rfl
  | cons j jobs =>
    simp [Draft.step, draftOf, draftWith, Table.openNext, Table.change, Keyed.get?, Table.set,
      Keyed.set, Except.map]

theorem foldlM_step {d d' : Draft} {st : Statement} (stepped : d.step st = .ok d')
    (sts : List Statement) : (st :: sts).foldlM Draft.step d = sts.foldlM Draft.step d' := by
  rw [List.foldlM_cons, stepped]
  rfl

theorem foldlM_statementsOf (jobs : List Job) (j : Job) :
    (statementsOf j).foldlM Draft.step (draftOf jobs) = .ok (draftOf (jobs ++ [j])) := by
  have whole : draftOf (jobs ++ [j]) = draftWith (jobs.map entriesOf) (entriesOf j) := by
    cases jobs with
    | nil => rfl
    | cons k jobs => simp [draftOf, draftWith]
  rw [whole, statementsOf, foldlM_step (step_nextTable jobs), foldlM_step (step_entry _ rfl _),
    foldlM_step (step_entry _ rfl _), foldlM_step (step_entry _ rfl _)]
  rfl

theorem foldlM_jobs (done jobs : List Job) :
    (jobs.flatMap statementsOf).foldlM Draft.step (draftOf done) = .ok (draftOf (done ++ jobs)) := by
  induction jobs generalizing done with
  | nil => rw [List.append_nil]; rfl
  | cons j jobs ih =>
    rw [List.flatMap_cons, List.foldlM_append, foldlM_statementsOf]
    have rest := ih (done ++ [j])
    rwa [List.append_assoc] at rest

theorem asStrings_arrayOf (ss : List String) : asStrings (arrayOf ss) = .ok ss := by
  rw [arrayOf, asStrings]
  induction ss with
  | nil => rfl
  | cons s ss ih =>
    rw [List.map_cons, List.mapM_cons, ih]
    rfl

theorem jobOfTable_entriesOf (j : Job) : jobOfTable (entriesOf j) = .ok j := by
  have known : checkOthers ["old_file", "new_file", "tags"] (entriesOf j) = .ok () := rfl
  have old : required "old_file" (entriesOf j) = .ok (.string j.oldFile) := rfl
  have new : required "new_file" (entriesOf j) = .ok (.string j.newFile) := rfl
  have tags : required "tags" (entriesOf j) = .ok (arrayOf j.tags) := rfl
  simp only [jobOfTable, known, old, new, tags, bind, Except.bind, asString, asStrings_arrayOf]
  rfl

theorem mapM_jobOfTable (jobs : List Job) : (jobs.map entriesOf).mapM jobOfTable = .ok jobs := by
  induction jobs with
  | nil => rfl
  | cons j jobs ih =>
    rw [List.map_cons, List.mapM_cons, ih, jobOfTable_entriesOf]
    rfl

theorem jobsOfTable_draftOf (j : Job) (jobs : List Job) :
    jobsOfTable (draftOf (j :: jobs)).root = .ok (j :: jobs) := by
  have known : checkOthers ["comparison"] (draftOf (j :: jobs)).root.entries = .ok () := rfl
  have found : Keyed.get? "comparison" (draftOf (j :: jobs)).root.entries =
      some (.tables ((j :: jobs).map entriesOf)) := rfl
  simp only [jobsOfTable, known, found, bind, Except.bind]
  exact mapM_jobOfTable (j :: jobs)

theorem ofToml_of_read {text : String} {sts : List Statement} {d : Draft}
    (unmarked : dropMark text.toList = text.toList)
    (read : readStatements (text.toList.length + 1) text.toList = .ok sts)
    (built : sts.foldlM Draft.step {} = .ok d) : ofToml text = jobsOfTable d.root := by
  rw [ofToml, parse]
  simp only [unmarked, read, bind, Except.bind, build, built]
  rfl

theorem ofToml_toToml_nil : ofToml (toToml []) = .ok [] := by
  have text : (toToml []).toList = assignment "comparison" (listText []) := String.toList_ofList
  have unmarked : dropMark (assignment "comparison" (listText [])) =
      assignment "comparison" (listText []) := by
    decide +kernel
  have four := four_le_length_assignment "comparison" (listText [])
  obtain ⟨n, enough⟩ : ∃ n, (assignment "comparison" (listText [])).length + 1 = n + 1 + 1 :=
    ⟨(assignment "comparison" (listText [])).length - 1, by omega⟩
  have bare : "comparison".toList.all isBare = true := by decide +kernel
  have line := line_list bare (by decide) []
  have read := readStatements_line line List.all_nil (n + 1) []
  rw [← assignment_append, List.append_nil, readStatements_end List.all_nil, ← enough, List.map_nil,
    ← text] at read
  rw [← text] at unmarked
  have built : [Statement.entry ⟨[], "comparison"⟩ (arrayOf [])].foldlM Draft.step {} =
      .ok ⟨⟨.header, [("comparison", arrayOf [])]⟩, []⟩ := rfl
  rw [ofToml_of_read unmarked read built]
  rfl

theorem ofToml_toToml (jobs : List Job) : ofToml (toToml jobs) = .ok jobs := by
  rcases jobs with _ | ⟨j, jobs⟩
  · exact ofToml_toToml_nil
  · have text : (toToml (j :: jobs)).toList = jobLines j ++ moreLines jobs := by
      rw [← flatten_jobLines]
      exact String.toList_ofList
    have unmarked : dropMark (jobLines j ++ moreLines jobs) = jobLines j ++ moreLines jobs := by
      unfold jobLines
      rw [List.append_assoc, List.append_assoc, List.append_assoc, header_append]
      rfl
    have read := readStatements_jobs j jobs (Nat.lt_succ_self _)
    rw [← text] at unmarked read
    rw [ofToml_of_read unmarked read (foldlM_jobs [] (j :: jobs)), List.nil_append,
      jobsOfTable_draftOf]

end XmlDelta.Jobs
