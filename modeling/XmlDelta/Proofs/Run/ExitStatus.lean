import XmlDelta.Proofs.Run.Interleaving
import XmlDelta.Run.Program

set_option autoImplicit false

namespace XmlDelta.Run

open XmlDelta.Compare
open XmlDelta.Disk (Node Tree)
open XmlDelta.Keyed (LastOf)

section Status

variable [Text.EastAsian] {m : Manager} {t : Tree} {reports : List JobReport}

theorem Manager.Ran.exists_kept_iff (ran : m.Ran t reports) (d : Micros) {P : JobReport → Prop}
    (timeless : ∀ r, P (r.lasting 0) ↔ P r) :
    (∃ r ∈ (Results.aggregate reports d).reports, P r) ↔
      ∃ j, LastOf Job.label m.jobs j ∧ P (m.runJob t j) := by
  simp only [Results.mem_reports_aggregate_iff]
  constructor
  · rintro ⟨r, last, holds⟩
    have last := last.of_map (JobReport.label_lasting 0)
    rw [ran.map_lasting_eq] at last
    obtain ⟨j, last, same⟩ := Keyed.exists_of_lastOf_map (m.label_runJob t) last
    exact ⟨j, last, same ▸ (timeless r).mpr holds⟩
  · rintro ⟨j, last, holds⟩
    obtain ⟨r, last, same⟩ := ran.exists_lastOf last
    exact ⟨r, last, (timeless r).mp (same ▸ holds)⟩

theorem Manager.Ran.hasFailures_iff (ran : m.Ran t reports) (d : Micros) :
    (Results.aggregate reports d).hasFailures = true ↔
      ∃ j, LastOf Job.label m.jobs j ∧ (m.runJob t j).Faulty :=
  (Results.hasFailures_iff _).trans (ran.exists_kept_iff d (JobReport.faulty_lasting_iff 0))

theorem Manager.Ran.hasChanges_iff (ran : m.Ran t reports) (d : Micros) :
    (Results.aggregate reports d).hasChanges = true ↔
      ∃ j, LastOf Job.label m.jobs j ∧ (m.runJob t j).Changed :=
  (Results.hasChanges_iff _).trans (ran.exists_kept_iff d (JobReport.changed_lasting_iff 0))

omit [Text.EastAsian] in
theorem exitCode_iff {s : Settings} (asked : s.failOnChanges = true) (r : Results) :
    (exitCode s r = 2 ↔ r.hasFailures = true) ∧
      (exitCode s r = 1 ↔ ¬ r.hasFailures = true ∧ r.hasChanges = true) ∧
      (exitCode s r = 0 ↔ ¬ r.hasFailures = true ∧ ¬ r.hasChanges = true) := by
  unfold exitCode
  rw [asked]
  cases r.hasFailures <;> cases r.hasChanges <;> decide

theorem code_finish_iff (q : Request) (p : Plan) (asked : p.settings.failOnChanges = true)
    {reports : List JobReport} (ran : p.manager.Ran p.disk reports) (d : Micros) :
    let code := (finish q p reports d).code
    let final := LastOf Job.label p.manager.jobs
    let report := p.manager.runJob p.disk
    (code = 2 ↔ ∃ j, final j ∧ (report j).Faulty) ∧
      (code = 1 ↔ (¬ ∃ j, final j ∧ (report j).Faulty) ∧ ∃ j, final j ∧ (report j).Changed) ∧
      (code = 0 ↔ ∀ j, final j → (report j).Unchanged) := by
  intro code final report
  obtain ⟨two, one, zero⟩ := exitCode_iff asked (Results.aggregate reports d)
  rw [ran.hasFailures_iff d, ran.hasChanges_iff d] at one zero
  rw [ran.hasFailures_iff d] at two
  refine ⟨two, one, zero.trans ?_⟩
  simp only [JobReport.unchanged_iff, not_exists, not_and, ← forall_and]
  rfl

end Status

def sameFilesTwice : Plan :=
  -- The removal under the tag of the first job is gone from the report of the second.
  let file (text : String) : Node := .file (Text.Utf8.encode text.toList)
  { settings := { failOnChanges := true }
    filter := none
    manager := { baseDir := "", jobs := [⟨"f", "f", ["r"]⟩, ⟨"f", "f", ["s"]⟩] }
    disk :=
      { root := .directory [("old", .directory [("f", file "<r><x/><s/></r>")]),
          ("new", .directory [("f", file "<r><s/></r>")])] }
    edits := [] }

def sameFilesTwiceReports : List JobReport :=
  let run := sameFilesTwice.manager.runJob sameFilesTwice.disk
  [(run ⟨"f", "f", ["r"]⟩).lasting 3, (run ⟨"f", "f", ["s"]⟩).lasting 4]

theorem ran_sameFilesTwice :
    sameFilesTwice.manager.Ran sameFilesTwice.disk sameFilesTwiceReports := by
  have timed : [3, 4].length = sameFilesTwice.manager.jobs.length := rfl
  exact .inTurn rfl timed

theorem code_sameFilesTwice (q : Request) :
    (finish q sameFilesTwice sameFilesTwiceReports 9).code = 0 := by
  change exitCode sameFilesTwice.settings (.aggregate sameFilesTwiceReports 9) = 0
  decide +kernel

theorem changed_sameFilesTwice :
    (sameFilesTwice.manager.runJob sameFilesTwice.disk ⟨"f", "f", ["r"]⟩).Changed := by
  have found : 0 < (sameFilesTwice.manager.runJob sameFilesTwice.disk ⟨"f", "f", ["r"]⟩).outcome.measure
      (fun ts => (ts.map fun t => t.verdict.changeCount).sum) := by
    decide +kernel
  obtain ⟨ts, compared, some⟩ := (Outcome.measure_pos_iff _ _).mp found
  obtain ⟨_, count, positive⟩ := List.sum_pos_iff_exists_pos_nat.mp some
  obtain ⟨t, inside, rfl⟩ := List.mem_map.mp count
  exact ⟨ts, compared, t, inside, positive⟩

theorem code_hides_change :
    ¬ ∀ (q : Request) (p : Plan) (reports : List JobReport) (d : Micros),
      p.settings.failOnChanges = true → p.manager.Ran p.disk reports →
        let code := (finish q p reports d).code
        let report := p.manager.runJob p.disk
        ((∃ j ∈ p.manager.jobs, (report j).Faulty) → code = 2) ∧
          ((¬ ∃ j ∈ p.manager.jobs, (report j).Faulty) →
            (∃ j ∈ p.manager.jobs, (report j).Changed) → code = 1) ∧
          (code = 0 → ∀ j ∈ p.manager.jobs, (report j).Unchanged) := by
  intro told
  let q : Request := ⟨[], [], {}, "", false⟩
  obtain ⟨-, -, zero⟩ := told q sameFilesTwice _ 9 rfl ran_sameFilesTwice
  have unchanged := zero (code_sameFilesTwice q) ⟨"f", "f", ["r"]⟩ List.mem_cons_self
  exact ((JobReport.unchanged_iff _).mp unchanged).2 changed_sameFilesTwice

theorem code_finish_sameFilesTwice :
    let q : Request := ⟨[], [], {}, "", false⟩
    let report := sameFilesTwice.manager.runJob sameFilesTwice.disk
    (sameFilesTwice.settings.failOnChanges = true ∧
        sameFilesTwice.manager.Ran sameFilesTwice.disk sameFilesTwiceReports) ∧
      (finish q sameFilesTwice sameFilesTwiceReports 9).code = 0 ∧
      (report ⟨"f", "f", ["r"]⟩).Changed ∧
      ∀ j, LastOf Job.label sameFilesTwice.manager.jobs j → (report j).Unchanged := by
  intro q report
  have zero := (code_finish_iff q sameFilesTwice rfl ran_sameFilesTwice 9).2.2
  exact ⟨⟨rfl, ran_sameFilesTwice⟩, code_sameFilesTwice q, changed_sameFilesTwice,
    zero.mp (code_sameFilesTwice q)⟩

end XmlDelta.Run
