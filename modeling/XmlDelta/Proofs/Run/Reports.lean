import XmlDelta.Proofs.Compare.Label
import XmlDelta.Proofs.Run.Interleaving

set_option autoImplicit false

namespace XmlDelta.Run.Manager

open XmlDelta.Compare
open XmlDelta.Disk (Tree)

section Kept

variable [Text.EastAsian] {m : Manager} {t : Tree} {reports : List JobReport}

theorem Ran.reports_eq_iff (ran : m.Ran t reports) (d : Micros) :
    (Results.aggregate reports d).reports.map (JobReport.lasting 0) = m.jobs.map (m.runJob t) ↔
      m.jobs.Pairwise fun j k => j.label ≠ k.label := by
  have kept := congrArg Results.reports (ran.withDuration_aggregate d)
  change (Results.aggregate reports d).reports.map (JobReport.lasting 0) = _ at kept
  rw [kept, Results.aggregate, Keyed.values_index_eq_iff, List.map_map, List.Nodup,
    List.pairwise_map]
  rfl

theorem reports_of_ran_iff (m : Manager) (t : Tree)
    (apart : m.jobs.Pairwise fun j k => ¬ Job.SameFiles j k) {reports : List JobReport}
    (ran : m.Ran t reports) (d : Micros) :
    ((Results.aggregate reports d).reports.map (JobReport.lasting 0) = m.jobs.map (m.runJob t) ↔
        m.jobs.Pairwise fun j k => ¬ Job.ArrowMoved j k ∧ ¬ Job.ArrowMoved k j) ∧
      ((∀ j ∈ m.jobs, ¬ [' ', '-', '>'] <:+: j.oldFile.toList) →
        (Results.aggregate reports d).reports.map (JobReport.lasting 0) =
          m.jobs.map (m.runJob t)) := by
  have labels : (m.jobs.Pairwise fun j k => j.label ≠ k.label) ↔
      m.jobs.Pairwise fun j k => ¬ Job.ArrowMoved j k ∧ ¬ Job.ArrowMoved k j := by
    constructor
    · intro differ
      exact (apart.and differ).imp fun both => (Job.label_ne_iff both.1).mp both.2
    · intro still
      exact (apart.and still).imp fun both => (Job.label_ne_iff both.1).mpr both.2
  rw [ran.reports_eq_iff d, labels]
  refine ⟨.rfl, fun plain => List.pairwise_of_forall_mem_list ?_⟩
  intro j left k right
  exact ⟨Job.not_arrowMoved_of_plain (plain k right), Job.not_arrowMoved_of_plain (plain j left)⟩

end Kept

def movedArrow : Manager :=
  { baseDir := "", jobs := [⟨"a", "b -> c", []⟩, ⟨"a -> b", "c", []⟩] }

theorem apart_movedArrow : movedArrow.jobs.Pairwise fun j k => ¬ Job.SameFiles j k := by
  unfold Job.SameFiles
  decide

theorem arrowMoved_movedArrow :
    Job.ArrowMoved ⟨"a", "b -> c", []⟩ ⟨"a -> b", "c", []⟩ :=
  .inl ⟨"b", rfl, rfl⟩

theorem reports_lost :
    ¬ ∀ (m : Manager) (t : Tree), (m.jobs.Pairwise fun j k => ¬ Job.SameFiles j k) →
      (m.runAll t).reports = m.jobs.map (m.runJob t) := by
  intro all
  have one : (movedArrow.runAll {}).reports.length = 1 := by
    decide +kernel
  rw [all movedArrow {} apart_movedArrow] at one
  simp [movedArrow] at one

def arrowsInNewNames : Manager :=
  { baseDir := "", jobs := [⟨"a", "b -> c", []⟩, ⟨"a", "c -> b -> c", []⟩] }

theorem apart_arrowsInNewNames :
    arrowsInNewNames.jobs.Pairwise fun j k => ¬ Job.SameFiles j k := by
  unfold Job.SameFiles
  decide

theorem reports_of_ran_movedArrow :
    let lost := movedArrow.jobs.map (movedArrow.runJob {})
    let kept := arrowsInNewNames.jobs.map (arrowsInNewNames.runJob {})
    ((movedArrow.jobs.Pairwise fun j k => ¬ Job.SameFiles j k) ∧ movedArrow.Ran {} lost) ∧
      (Results.aggregate lost 5).reports.map (JobReport.lasting 0) ≠ lost ∧
      ((arrowsInNewNames.jobs.Pairwise fun j k => ¬ Job.SameFiles j k) ∧
        arrowsInNewNames.Ran {} kept) ∧
      (Results.aggregate kept 5).reports.map (JobReport.lasting 0) = kept := by
  intro lost kept
  have timedLost : [0, 0].length = movedArrow.jobs.length := rfl
  have timedKept : [0, 0].length = arrowsInNewNames.jobs.length := rfl
  have ranLost : movedArrow.Ran {} lost := .inTurn rfl timedLost
  have ranKept : arrowsInNewNames.Ran {} kept := .inTurn rfl timedKept
  refine ⟨⟨apart_movedArrow, ranLost⟩, fun same => ?_, ⟨apart_arrowsInNewNames, ranKept⟩, ?_⟩
  · have still := (reports_of_ran_iff movedArrow {} apart_movedArrow ranLost 5).1.mp same
    exact (List.rel_of_pairwise_cons still List.mem_cons_self).1 arrowMoved_movedArrow
  · have plain : ∀ j ∈ arrowsInNewNames.jobs, ¬ [' ', '-', '>'] <:+: j.oldFile.toList := by
      decide +kernel
    exact (reports_of_ran_iff arrowsInNewNames {} apart_arrowsInNewNames ranKept 5).2 plain

end XmlDelta.Run.Manager
