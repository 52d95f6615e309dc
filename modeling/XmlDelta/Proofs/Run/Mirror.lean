import XmlDelta.Proofs.Run.Outcome

set_option autoImplicit false

namespace XmlDelta.Compare

open XmlDelta.Document (Element Location)

def Side.mirror : Side → Side
  | old => new
  | new => old
  | both => both

def InvalidReason.mirror : InvalidReason → InvalidReason
  | tagNotFound missingFrom => tagNotFound missingFrom.mirror
  | hierarchyMismatch oldPath newPath => hierarchyMismatch newPath oldPath

def Changes.mirror (c : Changes) : Changes :=
  { additions := c.removals, removals := c.additions }

namespace Verdict

def mirror : Verdict → Verdict
  | invalid reason => invalid reason.mirror
  | compared c => compared c.mirror

theorem isInvalid_mirror (v : Verdict) : v.mirror.isInvalid = v.isInvalid := by
  cases v <;> rfl

theorem changeCount_mirror (v : Verdict) : v.mirror.changeCount = v.changeCount := by
  cases v with
  | invalid reason => rfl
  | compared c => exact Nat.add_comm c.removals.length c.additions.length

end Verdict

def TagReport.mirror (r : TagReport) : TagReport :=
  { r with verdict := r.verdict.mirror }

def Job.mirror (j : Job) : Job :=
  { j with oldFile := j.newFile, newFile := j.oldFile }

theorem changes_mirror (old new : List Element) : changes new old = (changes old new).mirror :=
  rfl

theorem compareLocated_mirror (o n : Option Location) :
    compareLocated n o = (compareLocated o n).mirror := by
  cases o with
  | none => cases n <;> rfl
  | some o =>
    cases n with
    | none => rfl
    | some n =>
      by_cases same : o.path = n.path
      · rw [compareLocated, compareLocated, if_pos same, if_pos same.symm, changes_mirror]
        rfl
      · rw [compareLocated, compareLocated, if_neg same, if_neg (Ne.symm same)]
        rfl

theorem compareDocuments_mirror (old new : Element) (tag : String) :
    compareDocuments new old tag = (compareDocuments old new tag).mirror :=
  compareLocated_mirror _ _

end XmlDelta.Compare

namespace XmlDelta.Run

open XmlDelta.Compare
open XmlDelta.Disk (Path Tree)
open XmlDelta.Document (Element)

theorem compareTags_mirror (tags : List String) (old new : Element) :
    compareTags tags new old = (compareTags tags old new).map TagReport.mirror := by
  simp only [compareTags, compareDocuments_mirror old new, List.map_map]
  rfl

theorem countP_mirror (ts : List TagReport) :
    (ts.map TagReport.mirror).countP (fun t => t.verdict.isInvalid) =
      ts.countP fun t => t.verdict.isInvalid := by
  rw [List.countP_map]
  apply List.countP_congr
  intro t _
  rw [Function.comp_apply, TagReport.mirror, Verdict.isInvalid_mirror]

section Mirrored

variable [Text.EastAsian] {t : Tree} {old new : Path}

theorem exists_loadPair_error_mirror :
    (∃ f, loadPair t new old = .error f) ↔ ∃ f, loadPair t old new = .error f := by
  simp only [loadPair_eq_error_iff, exists_hinders_iff]
  exact or_comm

theorem loadPair_ok_mirror {a b : Element} (loaded : loadPair t old new = .ok (a, b)) :
    loadPair t new old = .ok (b, a) :=
  loadPair_eq_ok_iff.mpr (loadPair_eq_ok_iff.mp loaded).symm

theorem runJobIn_mirror (t : Tree) (a b : Path) (j : Job) :
    let report := runJobIn t a b j
    let mirrored := runJobIn t b a j.mirror
    ((∃ f, mirrored.outcome = .failed f) ↔ ∃ f, report.outcome = .failed f) ∧
      ((∃ f, report.outcome = .failed f) ∨
        ∃ ts mirrors, report.outcome = .compared ts ∧ mirrored.outcome = .compared mirrors ∧
          mirrors = ts.map TagReport.mirror ∧
          mirrors.map TagReport.tag = ts.map TagReport.tag ∧
          (mirrors.map fun r => r.verdict.changeCount) = (ts.map fun r => r.verdict.changeCount) ∧
          mirrors.countP (fun r => r.verdict.isInvalid) =
            ts.countP fun r => r.verdict.isInvalid) := by
  intro report mirrored
  constructor
  · simp only [report, mirrored, runJobIn, outcomeOf_eq_failed_iff]
    exact exists_loadPair_error_mirror
  · cases loaded : loadPair t (Path.join a j.oldFile) (Path.join b j.newFile) with
    | error f => exact .inl ⟨f, outcomeOf_eq_failed_iff.mpr loaded⟩
    | ok pair =>
      obtain ⟨x, y⟩ := pair
      have other := loadPair_ok_mirror loaded
      refine .inr ⟨compareTags j.tags x y, compareTags j.tags y x, ?_, ?_,
        compareTags_mirror j.tags x y, ?_, ?_, ?_⟩
      · simp only [report, runJobIn, loaded, outcomeOf]
      · simp only [mirrored, runJobIn, Job.mirror, other, outcomeOf]
      · rw [compareTags_mirror, List.map_map]
        rfl
      · rw [compareTags_mirror, List.map_map]
        exact List.map_congr_left fun r _ => r.verdict.changeCount_mirror
      · rw [compareTags_mirror, countP_mirror]

end Mirrored

-- With neither file there, each way round tells of the one that it looks for first.
example :
    (runJobIn {} "a" "b" ⟨"f", "g", []⟩).failure? = some (.missingFile "a/f") ∧
      (runJobIn {} "b" "a" ⟨"g", "f", []⟩).failure? = some (.missingFile "b/g") := by
  decide +kernel

end XmlDelta.Run
