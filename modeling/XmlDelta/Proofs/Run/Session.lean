import Mathlib.Data.List.Forall2
import XmlDelta.Proofs.Jobs.Load
import XmlDelta.Run.Session

set_option autoImplicit false

namespace XmlDelta.Run

open XmlDelta.Compare (Job JobReport Results)
open XmlDelta.Disk (Path Tree)
open XmlDelta.Jobs (Hindered Holds namesBoth)

/-- The jobs that an action adds, by its answer and by the disk that it found. -/
inductive Adds (t : Tree) : Action → Answer → List Job → Prop where
  | addJob (job : Job) : Adds t (.addJob job) .done [job]
  | addComparison (oldFile newFile : String) (tags : List String) :
      Adds t (.addComparison oldFile newFile tags) .done [⟨oldFile, newFile, tags⟩]
  | loaded {p : Path} {entries : List Job} (holds : Holds t p entries) :
      Adds t (.load p) (.loaded (entries.filter namesBoth).length) (entries.filter namesBoth)
  | refused {p : Path} {f : Settings.Fault} (hindered : Hindered t p f) :
      Adds t (.load p) (.refused f) []
  | save (p : Path) (answer : Answer) : Adds t (.save p) answer []
  | runJob (job : Job) (report : JobReport) : Adds t (.runJob job) (.report report) []
  | runAll (results : Results) : Adds t .runAll (.results results) []
  | ensureDirectories (answer : Answer) : Adds t .ensureDirectories answer []
  | outside (disk : Tree) : Adds t (.outside disk) .done []

def Moment.Adds (m : Moment) (jobs : List Job) : Prop :=
  Run.Adds m.before.disk m.action m.answer jobs

section Actions

variable [Text.EastAsian]

namespace Session

variable (s : Session)

theorem act_load_of_holds {p : Path} {entries : List Job} (holds : Holds s.disk p entries) :
    s.act (.load p) =
      (.loaded (entries.filter namesBoth).length,
        { s with manager := s.manager.add (entries.filter namesBoth) }) := by
  rw [act, Manager.load, holds.load]
  rfl

theorem act_load_of_hindered {p : Path} {f : Settings.Fault} (hindered : Hindered s.disk p f) :
    s.act (.load p) = (.refused f, s) := by
  rw [act, Manager.load, hindered.load]
  rfl

omit [Text.EastAsian] in
theorem manager_saved (result : Except Settings.Fault Tree) :
    (s.saved result).2.manager = s.manager := by
  cases result <;> rfl

omit [Text.EastAsian] in
theorem saved_eq_refused_iff {result : Except Settings.Fault Tree} {f : Settings.Fault} :
    (s.saved result).1 = .refused f ↔ result = .error f := by
  cases result <;> simp [saved]

theorem act_save_unsupported_iff {p : Path} {e : String} :
    (s.act (.save p)).1 = .refused (.unsupportedFormat e) ↔
      Path.extension p = some e ∧ e ≠ "json" ∧ e ≠ "toml" :=
  s.saved_eq_refused_iff.trans Jobs.save_eq_unsupported_iff

theorem act_save_of_refused {p : Path} {f : Settings.Fault}
    (refused : (s.act (.save p)).1 = .refused f) : (s.act (.save p)).2 = s := by
  rw [act] at refused ⊢
  rw [s.saved_eq_refused_iff.mp refused]
  rfl

theorem exists_adds (a : Action) :
    ∃ added, Adds s.disk a (s.act a).1 added ∧
      (s.act a).2.manager.jobs = s.manager.jobs ++ added := by
  cases a with
  | addJob job => exact ⟨_, .addJob job, rfl⟩
  | addComparison old new tags => exact ⟨_, .addComparison old new tags, rfl⟩
  | load p =>
    obtain ⟨entries, holds⟩ | ⟨f, hindered⟩ := Jobs.holds_or_hindered s.disk p
    · rw [s.act_load_of_holds holds]
      exact ⟨_, .loaded holds, rfl⟩
    · rw [s.act_load_of_hindered hindered]
      exact ⟨_, .refused hindered, (List.append_nil _).symm⟩
  | save p =>
    refine ⟨_, .save p _, ?_⟩
    rw [act, manager_saved, List.append_nil]
  | runJob job => exact ⟨_, .runJob job _, (List.append_nil _).symm⟩
  | runAll => exact ⟨_, .runAll _, (List.append_nil _).symm⟩
  | ensureDirectories => exact ⟨_, .ensureDirectories _, (List.append_nil _).symm⟩
  | outside disk => exact ⟨_, .outside disk, (List.append_nil _).symm⟩

theorem act_of_mem_history {actions : List Action} {m : Moment} (inside : m ∈ s.history actions) :
    m.before.act m.action = (m.answer, m.after) := by
  induction actions generalizing s with
  | nil => cases inside
  | cons a as ih =>
    rcases List.mem_cons.mp inside with rfl | inside
    · rfl
    · exact ih _ inside

theorem exists_added (actions : List Action) :
    ∃ added : List (List Job),
      List.Forall₂ Moment.Adds (s.history actions) added ∧
      ∀ n, (s.run (actions.take n)).manager.jobs = s.manager.jobs ++ (added.take n).flatten := by
  induction actions generalizing s with
  | nil => exact ⟨[], .nil, fun n => by simp [run]⟩
  | cons a as ih =>
    obtain ⟨first, adds, jobs⟩ := s.exists_adds a
    obtain ⟨rest, allAdd, later⟩ := ih (s.act a).2
    refine ⟨first :: rest, .cons adds allAdd, fun n => ?_⟩
    cases n with
    | zero => simp [run]
    | succ n =>
      rw [List.take_succ_cons, List.take_succ_cons, List.flatten_cons, run, later, jobs,
        List.append_assoc]

end Session

/-- A session never changes its list but by what its actions add; a save under an extension of no
format is refused and changes nothing at all. -/
theorem session_jobs (s : Session) (actions : List Action) :
    ∃ added : List (List Job),
      List.Forall₂ Moment.Adds (s.history actions) added ∧
      (∀ n, (s.run (actions.take n)).manager.jobs = s.manager.jobs ++ (added.take n).flatten) ∧
      ∀ m ∈ s.history actions, ∀ p e, m.action = .save p →
        (m.answer = .refused (.unsupportedFormat e) ↔
          Path.extension p = some e ∧ e ≠ "json" ∧ e ≠ "toml") ∧
        (m.answer = .refused (.unsupportedFormat e) → m.after = m.before) := by
  obtain ⟨added, allAdd, jobs⟩ := s.exists_added actions
  refine ⟨added, allAdd, jobs, fun m inside p e save => ?_⟩
  have acted := s.act_of_mem_history inside
  rw [save] at acted
  have answer : m.answer = (m.before.act (.save p)).1 := congrArg Prod.fst acted.symm
  have after : m.after = (m.before.act (.save p)).2 := congrArg Prod.snd acted.symm
  rw [answer, after]
  exact ⟨m.before.act_save_unsupported_iff, m.before.act_save_of_refused⟩

end Actions

theorem session_jobs_mended :
    let disk (text : String) : Tree :=
      { root := .directory [("jobs.json", .file (Text.Utf8.encode text.toList))] }
    let first := "\x7b\"old_file\":\"a\",\"new_file\":\"b\",\"tags\":[\"t\"]\x7d"
    let broken := "[" ++ first ++ ",\x7b\"old_file\":\"a\"\x7d]"
    let mended := "[" ++ first ++ ",\x7b\"old_file\":\" \",\"new_file\":\"b\",\"tags\":[]\x7d]"
    let s : Session := ⟨{ baseDir := ".", jobs := [⟨"x", "y", []⟩] }, disk broken⟩
    let actions : List Action :=
      [.load "jobs.json", .save "jobs.yaml", .outside (disk mended), .load "jobs.json", .runAll]
    ∃ added : List (List Job),
      List.Forall₂ Moment.Adds (s.history actions) added ∧
      (added.take 3).flatten = [] ∧ added.flatten = [⟨"a", "b", ["t"]⟩] := by
  intro disk first broken mended s actions
  obtain ⟨added, allAdd, jobs, -⟩ := session_jobs s actions
  have early : (s.run (actions.take 3)).manager.jobs = [⟨"x", "y", []⟩] := by decide +kernel
  have late : (s.run (actions.take 5)).manager.jobs = [⟨"x", "y", []⟩, ⟨"a", "b", ["t"]⟩] := by
    decide +kernel
  have five : added.take 5 = added := List.take_of_length_le (List.Forall₂.length_eq allAdd).ge
  rw [jobs] at early late
  rw [five] at late
  exact ⟨added, allAdd, (List.cons.inj early).2, (List.cons.inj late).2⟩

end XmlDelta.Run
