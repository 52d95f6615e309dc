import XmlDelta.Proofs.Compare.Aggregate
import XmlDelta.Proofs.Run.Interleaving
import XmlDelta.Run.Session

set_option autoImplicit false

namespace XmlDelta.Run

open XmlDelta.Compare
open XmlDelta.Disk (Path Tree)

namespace Manager

variable (m : Manager) (js : List Job) (t : Tree)

theorem jobs_add : (m.add js).jobs = m.jobs ++ js :=
  rfl

theorem runJob_add [Text.EastAsian] : (m.add js).runJob t = m.runJob t :=
  rfl

theorem runAll_add_add [Text.EastAsian] : ((m.add js).add js).runAll t = (m.add js).runAll t := by
  simp only [runAll, jobs_add, runJob_add, List.map_append, Results.aggregate_append_self]

end Manager

namespace Session

variable (s : Session) (p : Path)

def offered : List Job :=
  (Jobs.load s.disk p).toOption.getD []

theorem act_load [Text.EastAsian] :
    (s.act (.load p)).2 = { s with manager := s.manager.add (s.offered p) } := by
  unfold offered
  cases loaded : Jobs.load s.disk p with
  | ok js => simp only [act, Manager.load, loaded, Except.map, Session.loaded, Except.toOption,
      Option.getD_some]
  | error f => simp only [act, Manager.load, loaded, Except.map, Session.loaded, Except.toOption,
      Option.getD_none, Manager.add, List.append_nil]

theorem runAll_reload [Text.EastAsian] :
    (s.run [.load p, .load p]).manager.runAll s.disk = (s.run [.load p]).manager.runAll s.disk := by
  have again : ({ s with manager := s.manager.add (s.offered p) } : Session).offered p =
      s.offered p := rfl
  simp only [run, act_load, again, Manager.runAll_add_add]

end Session

theorem results_of_reload [Text.EastAsian] :
    (∀ (xs ys : List JobReport) (d e : Micros),
      Results.aggregate ((Results.aggregate xs d).reports ++ ys) e =
        Results.aggregate (xs ++ ys) e) ∧
    (∀ (xs : List JobReport) (d : Micros),
      Results.aggregate (xs ++ xs) d = Results.aggregate xs d) ∧
    ∀ (s : Session) (p : Path),
      let once := s.run [.load p]
      let twice := s.run [.load p, .load p]
      twice.manager.runAll twice.disk = once.manager.runAll once.disk ∧
        ∀ first again, once.manager.Ran once.disk first → twice.manager.Ran twice.disk again →
          ∀ d e, (Results.aggregate again e).withDuration 0 =
            (Results.aggregate first d).withDuration 0 := by
  refine ⟨Results.aggregate_append, Results.aggregate_append_self [], ?_⟩
  intro s p once twice
  have disks : once.disk = s.disk ∧ twice.disk = s.disk := by
    simp only [once, twice, Session.run, Session.act_load, and_self]
  have same : twice.manager.runAll twice.disk = once.manager.runAll once.disk := by
    simp only [disks]
    exact s.runAll_reload p
  refine ⟨same, fun first again ran ranAgain d e => ?_⟩
  calc (Results.aggregate again e).withDuration 0
    _ = twice.manager.runAll twice.disk := ranAgain.withDuration_aggregate e
    _ = once.manager.runAll once.disk := same
    _ = (Results.aggregate first d).withDuration 0 := (ran.withDuration_aggregate d).symm

theorem results_of_reload_crowded :
    let text := "[[\"a\", \"b\", [\"t\"]]]"
    let s : Session :=
      ⟨{ baseDir := ".", maxConcurrent := 2 },
        { root := .directory [("jobs.json", .file (Text.Utf8.encode text.toList))] }⟩
    let once := s.run [.load "jobs.json"]
    let twice := s.run [.load "jobs.json", .load "jobs.json"]
    (once.manager.inTurn = true ∧ twice.manager.inTurn = false) ∧
      ∃ first again, once.manager.Ran once.disk first ∧ twice.manager.Ran twice.disk again ∧
        (Results.aggregate again 9).withDuration 0 = (Results.aggregate first 4).withDuration 0 ∧
        ((Results.aggregate again 9).withDuration 0).labels = ["a -> b"] := by
  intro text s once twice
  obtain ⟨first, ran⟩ := once.manager.exists_ran once.disk
  obtain ⟨again, ranAgain⟩ := twice.manager.exists_ran twice.disk
  have same := (results_of_reload.2.2 s "jobs.json").2 first again ran ranAgain 4 9
  refine ⟨⟨by decide +kernel, by decide +kernel⟩, first, again, ran, ranAgain, same, ?_⟩
  rw [ranAgain.withDuration_aggregate]
  decide +kernel

end XmlDelta.Run
