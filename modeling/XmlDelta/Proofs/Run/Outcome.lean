import XmlDelta.Proofs.Except
import XmlDelta.Proofs.Keyed.Index
import XmlDelta.Run.Manager

set_option autoImplicit false

namespace XmlDelta.Disk.Tree

variable {t : Tree} {p : Path}

theorem tryExists_eq_true_iff : t.tryExists p = .ok true ↔ ∃ n, t.lookup p = .ok n := by
  rw [tryExists]
  cases t.lookup p with
  | ok n => simp
  | error e =>
    simp only [reduceCtorEq, exists_false, iff_false]
    split <;> simp

theorem tryExists_of_read {bytes : List UInt8} (read : t.read p = .ok bytes) :
    t.tryExists p = .ok true := by
  obtain ⟨n, found, -⟩ := bind_eq_ok_iff.mp read
  exact tryExists_eq_true_iff.mpr ⟨n, found⟩

theorem kind_ne_notFound {e : IoError} (there : t.tryExists p = .ok true)
    (unread : t.read p = .error e) : e.kind ≠ .notFound := by
  obtain ⟨n, found⟩ := tryExists_eq_true_iff.mp there
  rw [read, found] at unread
  cases n with
  | file bytes => cases unread
  | directory entries =>
    obtain rfl : IoError.isDirectory = e := Except.error.inj unread
    decide

end XmlDelta.Disk.Tree

namespace XmlDelta.Run

open XmlDelta.Compare
open XmlDelta.Disk (IoError Path Tree)
open XmlDelta.Document (Element)

/-- Why a file is not found. -/
inductive NotFound (t : Tree) (p : Path) : Failure → Prop where
  | absent (absent : t.tryExists p = .ok false) : NotFound t p (.missingFile p)
  | unknown {e : IoError} (unknown : t.tryExists p = .error e) : NotFound t p (.io e)

section Outcomes

variable [Text.EastAsian]

/-- Why a file gives no document. -/
inductive NoDocument (t : Tree) (p : Path) : Failure → Prop where
  | unreadable {e : IoError} (unread : t.read p = .error e) : NoDocument t p (.io e)
  | malformed {bytes : List UInt8} {f : Markup.DocumentFault} (read : t.read p = .ok bytes)
      (malformed : Document.parseBytes bytes = .error f) :
      NoDocument t p (.unparsable p f.message)

def Unusable (t : Tree) (p : Path) : Prop :=
  ∃ f, NotFound t p f ∨ NoDocument t p f

def Gives (t : Tree) (p : Path) (e : Element) : Prop :=
  ∃ bytes, t.read p = .ok bytes ∧ Document.parseBytes bytes = .ok e

/-- The first fault of two files: both must be found before either is read. -/
inductive Hinders (t : Tree) (old new : Path) : Failure → Prop where
  | oldNotFound {f : Failure} (fault : NotFound t old f) : Hinders t old new f
  | newNotFound {f : Failure} (oldFound : t.tryExists old = .ok true) (fault : NotFound t new f) :
      Hinders t old new f
  | oldNoDocument {f : Failure} (oldFound : t.tryExists old = .ok true)
      (newFound : t.tryExists new = .ok true) (fault : NoDocument t old f) : Hinders t old new f
  | newNoDocument {f : Failure} {a : Element} (newFound : t.tryExists new = .ok true)
      (oldRead : Gives t old a) (fault : NoDocument t new f) : Hinders t old new f

variable {t : Tree} {p old new : Path}

omit [Text.EastAsian] in
theorem requireFile_eq_ok_iff {u : Unit} :
    requireFile t p = .ok u ↔ t.tryExists p = .ok true := by
  rw [requireFile]
  rcases t.tryExists p with e | _ | _ <;> simp

omit [Text.EastAsian] in
theorem requireFile_eq_error_iff {f : Failure} : requireFile t p = .error f ↔ NotFound t p f := by
  rw [requireFile]
  constructor
  · intro refused
    split at refused
    · cases refused
    · obtain rfl := Except.error.inj refused
      exact .absent ‹_›
    · obtain rfl := Except.error.inj refused
      exact .unknown ‹_›
  · rintro (absent | unknown)
    · rw [absent]
    · rw [unknown]

theorem loadDocument_eq_ok_iff {e : Element} : loadDocument t p = .ok e ↔ Gives t p e := by
  simp only [loadDocument, bind_eq_ok_iff, mapError_eq_ok_iff, Gives]

theorem loadDocument_eq_error_iff {f : Failure} (there : t.tryExists p = .ok true) :
    loadDocument t p = .error f ↔ NoDocument t p f := by
  simp only [loadDocument, bind_eq_error_iff, mapError_eq_ok_iff, mapError_eq_error_iff]
  constructor
  · rintro (⟨e, unread, rfl⟩ | ⟨bytes, read, g, malformed, rfl⟩)
    · rw [readFailure, if_neg (Tree.kind_ne_notFound there unread)]
      exact .unreadable unread
    · exact .malformed read malformed
  · rintro (unread | ⟨read, malformed⟩)
    · exact .inl ⟨_, unread, if_neg (Tree.kind_ne_notFound there unread)⟩
    · exact .inr ⟨_, read, _, malformed, rfl⟩

theorem Gives.found {e : Element} (gives : Gives t p e) : t.tryExists p = .ok true := by
  obtain ⟨bytes, read, -⟩ := gives
  exact Tree.tryExists_of_read read

theorem Gives.not_unusable {e : Element} (gives : Gives t p e) : ¬ Unusable t p := by
  obtain ⟨bytes, read, parsed⟩ := gives
  have found := Tree.tryExists_of_read read
  rintro ⟨f, (absent | unknown) | (unread | ⟨read', malformed⟩)⟩
  · simp [found] at absent
  · simp [found] at unknown
  · simp [read] at unread
  · obtain rfl := Except.ok.inj (read.symm.trans read')
    simp [parsed] at malformed

theorem loadPair_eq_ok_iff {a b : Element} :
    loadPair t old new = .ok (a, b) ↔ Gives t old a ∧ Gives t new b := by
  simp only [loadPair, bind_eq_ok_iff, requireFile_eq_ok_iff, loadDocument_eq_ok_iff]
  constructor
  · rintro ⟨-, -, -, -, a', oldGives, b', newGives, same⟩
    obtain ⟨rfl, rfl⟩ := Prod.mk.inj (Except.ok.inj same)
    exact ⟨oldGives, newGives⟩
  · rintro ⟨oldGives, newGives⟩
    exact ⟨(), oldGives.found, (), newGives.found, a, oldGives, b, newGives, rfl⟩

theorem loadPair_eq_error_iff {f : Failure} :
    loadPair t old new = .error f ↔ Hinders t old new f := by
  simp only [loadPair, bind_eq_error_iff, requireFile_eq_error_iff, requireFile_eq_ok_iff,
    loadDocument_eq_ok_iff]
  constructor
  · rintro (fault | ⟨-, oldFound, fault | ⟨-, newFound, fault | ⟨a, oldGives, fault | ⟨b, -, none⟩⟩⟩⟩)
    · exact .oldNotFound fault
    · exact .newNotFound oldFound fault
    · exact .oldNoDocument oldFound newFound ((loadDocument_eq_error_iff oldFound).mp fault)
    · exact .newNoDocument newFound oldGives ((loadDocument_eq_error_iff newFound).mp fault)
    · cases none
  · rintro (fault | ⟨oldFound, fault⟩ | ⟨oldFound, newFound, fault⟩ | ⟨newFound, oldGives, fault⟩)
    · exact .inl fault
    · exact .inr ⟨(), oldFound, .inl fault⟩
    · have refused := (loadDocument_eq_error_iff oldFound).mpr fault
      exact .inr ⟨(), oldFound, .inr ⟨(), newFound, .inl refused⟩⟩
    · have refused := (loadDocument_eq_error_iff newFound).mpr fault
      exact .inr ⟨(), oldGives.found, .inr ⟨(), newFound, .inr ⟨_, oldGives, .inl refused⟩⟩⟩

omit [Text.EastAsian] in
theorem distinct_eq_eraseDups (tags : List String) : distinct tags = tags.eraseDups := by
  induction tags using List.reverseRecOn with
  | nil => rfl
  | append_singleton tags tag ih =>
    have step : distinct (tags ++ [tag]) =
        if (distinct tags).contains tag then distinct tags else distinct tags ++ [tag] :=
      List.foldl_append
    simp only [step, ih, Keyed.eraseDups_append_singleton, List.contains_iff_mem,
      List.mem_eraseDups]

omit [Text.EastAsian] in
theorem find?_reports (tags : List String) (verdict : String → Verdict) (tag : String) :
    ((tags.map fun tag => (⟨tag, verdict tag⟩ : TagReport)).find? (·.tag == tag)).map
        TagReport.verdict = if tag ∈ tags then some (verdict tag) else none := by
  induction tags with
  | nil => rfl
  | cons first tags ih =>
    by_cases hit : first = tag
    · simp [hit]
    · simp only [List.map_cons, List.find?_cons_of_neg, beq_iff_eq, hit, not_false_eq_true, ih,
        List.mem_cons, Ne.symm hit, false_or]

omit [Text.EastAsian] in
theorem outcomeOf_eq_failed_iff {tags : List String} {pair : Except Failure (Element × Element)}
    {f : Failure} : outcomeOf tags pair = .failed f ↔ pair = .error f := by
  cases pair <;> simp [outcomeOf]

omit [Text.EastAsian] in
theorem outcomeOf_ok (tags : List String) (a b : Element) :
    outcomeOf tags (.ok (a, b)) =
      .compared (tags.eraseDups.map fun tag => ⟨tag, compareDocuments a b tag⟩) := by
  rw [outcomeOf, compareTags, distinct_eq_eraseDups]

theorem hinders_or_gives (t : Tree) (old new : Path) :
    (∃ f, Hinders t old new f) ∨ ∃ a b, Gives t old a ∧ Gives t new b := by
  cases loaded : loadPair t old new with
  | error f => exact .inl ⟨f, loadPair_eq_error_iff.mp loaded⟩
  | ok pair => exact .inr ⟨pair.1, pair.2, loadPair_eq_ok_iff.mp loaded⟩

theorem Hinders.unusable {f : Failure} (hinders : Hinders t old new f) :
    Unusable t old ∨ Unusable t new := by
  cases hinders with
  | oldNotFound fault => exact .inl ⟨f, .inl fault⟩
  | newNotFound _ fault => exact .inr ⟨f, .inl fault⟩
  | oldNoDocument _ _ fault => exact .inl ⟨f, .inr fault⟩
  | newNoDocument _ _ fault => exact .inr ⟨f, .inr fault⟩

theorem exists_hinders_iff :
    (∃ f, Hinders t old new f) ↔ Unusable t old ∨ Unusable t new := by
  constructor
  · rintro ⟨f, hinders⟩
    exact hinders.unusable
  · intro unusable
    rcases hinders_or_gives t old new with hinders | ⟨a, b, oldGives, newGives⟩
    · exact hinders
    · exact (unusable.elim oldGives.not_unusable newGives.not_unusable).elim

/-- What a job is reported with, by the files at the two paths that it names. -/
theorem outcome_runJob (m : Manager) (t : Tree) (j : Job) :
    let old := Path.join m.oldDir j.oldFile
    let new := Path.join m.newDir j.newFile
    let report := m.runJob t j
    (∀ f, report.outcome = .failed f ↔ Hinders t old new f) ∧
      ((∃ f, report.outcome = .failed f) ↔ Unusable t old ∨ Unusable t new) ∧
      (t.tryExists old = .ok true → t.tryExists new = .ok false →
        report.outcome = .failed (.missingFile new)) ∧
      ((¬ ∃ f, report.outcome = .failed f) →
        ∃ a b, Gives t old a ∧ Gives t new b ∧
          report.outcome =
            .compared (j.tags.eraseDups.map fun tag => ⟨tag, compareDocuments a b tag⟩) ∧
          ∀ tag, report.verdict? tag =
            if tag ∈ j.tags then some (compareDocuments a b tag) else none) := by
  intro old new report
  have outcome : report.outcome = outcomeOf j.tags (loadPair t old new) := rfl
  have failed : ∀ f, report.outcome = .failed f ↔ Hinders t old new f := by
    intro f
    simp only [outcome, outcomeOf_eq_failed_iff, loadPair_eq_error_iff]
  refine ⟨failed, ?_, ?_, ?_⟩
  · simp only [failed, exists_hinders_iff]
  · intro oldFound newAbsent
    exact (failed _).mpr (.newNotFound oldFound (.absent newAbsent))
  · intro unhindered
    simp only [failed] at unhindered
    obtain ⟨a, b, gives⟩ := (hinders_or_gives t old new).resolve_left unhindered
    have compared : report.outcome =
        .compared (j.tags.eraseDups.map fun tag => ⟨tag, compareDocuments a b tag⟩) := by
      rw [outcome, loadPair_eq_ok_iff.mpr gives, outcomeOf_ok]
    refine ⟨a, b, gives.1, gives.2, compared, fun tag => ?_⟩
    have found := find?_reports j.tags.eraseDups (compareDocuments a b) tag
    simp only [List.mem_eraseDups] at found
    rw [JobReport.verdict?, JobReport.tags, compared]
    exact found

end Outcomes

theorem outcome_runJob_hidden :
    let file (text : String) : Disk.Node := .file (Text.Utf8.encode text.toList)
    let disk : Tree :=
      { root := .directory [("old", .directory [("x", file "<r>"), ("y", file "<r><a/></r>")]),
          ("new", .directory [("y", file "<r/>")])] }
    let broken := ({ baseDir := "" } : Manager).runJob disk ⟨"x", "x", ["r"]⟩
    let whole := ({ baseDir := "" } : Manager).runJob disk ⟨"y", "y", ["r", "a", "r"]⟩
    (disk.tryExists "old/x" = .ok true ∧ disk.tryExists "new/x" = .ok false ∧
        Unusable disk "old/x" ∧ ¬ ∃ f, whole.outcome = .failed f) ∧
      broken.outcome = .failed (.missingFile "new/x") ∧
      ∃ a b, Gives disk "old/y" a ∧ Gives disk "new/y" b ∧
        whole.outcome = .compared
          [⟨"r", compareDocuments a b "r"⟩, ⟨"a", compareDocuments a b "a"⟩] ∧
        whole.verdict? "a" = some (compareDocuments a b "a") ∧ whole.verdict? "b" = none := by
  intro file disk broken whole
  let m : Manager := { baseDir := "" }
  have paths : (Path.join m.oldDir "x" = "old/x" ∧ Path.join m.newDir "x" = "new/x") ∧
      Path.join m.oldDir "y" = "old/y" ∧ Path.join m.newDir "y" = "new/y" := by
    decide +kernel
  have oldFound : disk.tryExists "old/x" = .ok true := by decide +kernel
  have newAbsent : disk.tryExists "new/x" = .ok false := by decide +kernel
  have unusable : Unusable disk "old/x" := by
    have opened : (loadDocument disk "old/x").toOption.isNone = true := by decide +kernel
    cases loaded : loadDocument disk "old/x" with
    | ok e => simp [loaded, Except.toOption] at opened
    | error f => exact ⟨f, .inr ((loadDocument_eq_error_iff oldFound).mp loaded)⟩
  have unhindered : ¬ ∃ f, whole.outcome = .failed f := by
    have compared : whole.failure?.isNone = true := by decide +kernel
    rintro ⟨f, refused⟩
    rw [JobReport.failure?, refused] at compared
    cases compared
  obtain ⟨-, -, missing, -⟩ := outcome_runJob m disk ⟨"x", "x", ["r"]⟩
  simp only [paths] at missing
  obtain ⟨a, b, oldGives, newGives, outcome, verdict⟩ :=
    (outcome_runJob m disk ⟨"y", "y", ["r", "a", "r"]⟩).2.2.2 unhindered
  have once : ["r", "a", "r"].eraseDups = ["r", "a"] := by decide
  simp only [paths] at oldGives newGives
  simp only [once, List.map_cons, List.map_nil] at outcome
  exact ⟨⟨oldFound, newAbsent, unusable, unhindered⟩, missing oldFound newAbsent, a, b, oldGives,
    newGives, outcome, (verdict "a").trans (if_pos (by decide)),
    (verdict "b").trans (if_neg (by decide))⟩

end XmlDelta.Run
