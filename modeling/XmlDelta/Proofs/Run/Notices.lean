import Mathlib.Data.List.Forall2
import XmlDelta.Proofs.Report.Telling
import XmlDelta.Run.Program

set_option autoImplicit false

namespace XmlDelta.Run

open XmlDelta.Compare
open XmlDelta.Report

def messages (ns : List Notice) : List String :=
  ns.filterMap fun
    | .message text => some text
    | .record _ => none

theorem messages_append (xs ys : List Notice) : messages (xs ++ ys) = messages xs ++ messages ys :=
  List.filterMap_append

theorem messages_map_record (rs : List Record) : messages (rs.map .record) = [] := by
  simp [messages]

theorem messages_map_message (texts : List String) : messages (texts.map .message) = texts := by
  simp [messages]

theorem messages_log (p : Plan) (rs : List Record) :
    messages (p.log rs).notices = messages p.notices := by
  change messages (p.notices ++ (rs.filter p.filter.keeps).map .record) = _
  rw [messages_append, messages_map_record, List.append_nil]

/-- The report has no section for each job. -/
def TellsApart (s : Settings) : Prop :=
  s.format ≠ .human ∨ s.verbosity = .quiet

theorem tellsApart_iff (s : Settings) :
    (s.format != .human || s.verbosity = .quiet) = true ↔ TellsApart s := by
  simp [TellsApart]

variable (q : Request) {s : Settings}

theorem failureTexts_tell (v : Verbosity) (clock : Option String) (rs : List JobReport) :
    List.Forall₂ TellsOf (rs.filter fun j => j.outcome.isFailed)
      ((rs.filterMap JobReport.failure?).map (failureText v clock)) := by
  induction rs with
  | nil => exact .nil
  | cons r rs ih =>
    cases found : r.outcome with
    | compared ts =>
      have kept : (r :: rs).filter (fun j => j.outcome.isFailed) =
          rs.filter fun j => j.outcome.isFailed := by
        simp [found, Outcome.isFailed]
      rw [kept, List.filterMap_cons_none (by rw [JobReport.failure?, found]; rfl)]
      exact ih
    | failed f =>
      have kept : (r :: rs).filter (fun j => j.outcome.isFailed) =
          r :: rs.filter fun j => j.outcome.isFailed := by
        simp [found, Outcome.isFailed]
      rw [kept, List.filterMap_cons_some (b := f) (by rw [JobReport.failure?, found]; rfl)]
      exact .cons ⟨f, found, tells_failureText v clock f⟩ ih

theorem messages_of_apart (apart : TellsApart s) (r : Results) :
    List.Forall₂ TellsOf (r.reports.filter fun j => j.outcome.isFailed)
      (messages (failureNotices q s r)) := by
  rw [failureNotices, if_pos ((tellsApart_iff s).mpr apart)]
  dsimp only
  rw [messages_map_message]
  exact failureTexts_tell _ _ r.reports

theorem failureNotices_of_not_apart (inside : ¬ TellsApart s) (r : Results) :
    failureNotices q s r = [] := by
  rw [failureNotices, if_neg (mt (tellsApart_iff s).mp inside)]

theorem sections_of_not_apart (inside : ¬ TellsApart s) (r : Results) :
    ∃ sections rest, reportText q s r = String.join sections ++ rest ∧
      List.Forall₂ IsSection r.reports sections := by
  obtain ⟨format, loud⟩ := not_or.mp inside
  have human : s.format = .human := not_not.mp format
  refine ⟨r.reports.map fun j => paint q.colors (jobFragments s.verbosity j),
    paint q.colors (if s.verbosity.isDetailed then .plain "\n" :: summaryFragments r else []), ?_, ?_⟩
  · rw [reportText, resultsText, human]
    dsimp only
    rw [humanFragments, if_neg loud, paint_append, paint_flatMap]
  · rw [List.forall₂_map_right_iff, List.forall₂_same]
    exact fun j _ => isSection_jobFragments q.colors s.verbosity j

/-- Every failure is told, in a message of its own or in the section of its job, and what is worth
notice leaves a report. -/
theorem finish_tells (p : Plan) (reports : List JobReport) (d : Micros) :
    let r := Results.aggregate reports d
    let t := finish q p reports d
    ∃ told, messages t.notices = messages p.notices ++ told ∧
      (TellsApart p.settings →
        List.Forall₂ TellsOf (r.reports.filter fun j => j.outcome.isFailed) told) ∧
      (¬ TellsApart p.settings → told = [] ∧
        ∃ sections rest, t.output = String.join sections ++ rest ∧
          List.Forall₂ IsSection r.reports sections) ∧
      (Notable r → t.output ≠ "") := by
  intro r t
  have output : t.output =
      if reportText q p.settings r = "" then "" else reportText q p.settings r ++ "\n" := rfl
  refine ⟨messages (failureNotices q p.settings r), ?_, ?_, ?_, ?_⟩
  · change messages ((p.log _).notices ++ failureNotices q p.settings r) = _
    rw [messages_append, messages_log]
  · exact fun apart => messages_of_apart q apart r
  · intro inside
    obtain ⟨sections, rest, text, each⟩ := sections_of_not_apart q inside r
    refine ⟨by rw [failureNotices_of_not_apart q inside]; rfl, sections, ?_⟩
    rw [output]
    split
    · rename_i silent
      rw [text] at silent
      exact ⟨rest, silent.symm, each⟩
    · exact ⟨rest ++ "\n", by rw [text, String.append_assoc], each⟩
  · intro notable
    have said : reportText q p.settings r ≠ "" := resultsText_ne_empty notable _
    rw [output, if_neg said]
    simp

def lostFiles : List JobReport :=
  [⟨"a -> b", "old/a", "new/b", .failed (.missingFile "old/a"), 0⟩,
    ⟨"c -> d", "old/c", "new/d", .compared [⟨"t", .compared ⟨[{ tag := "x" }], []⟩⟩], 0⟩,
    ⟨"e -> f", "old/e", "new/f", .failed (.unparsable "new/f" "unclosed element <f>"), 0⟩]

def bareRequest : Request :=
  { arguments := [], environment := [], disk := {}, clock := "", colors := false }

def barePlan (s : Settings) : Plan :=
  { settings := s, filter := none, manager := { baseDir := "." }, disk := {}, edits := [] }

theorem finish_tells_lostFiles :
    let failed : List Failure :=
      [.missingFile "old/a", .unparsable "new/f" "unclosed element <f>"]
    let ended (s : Settings) := finish bareRequest (barePlan s) lostFiles 0
    let quiet := ended { quiet := true }
    let json := ended { format := .json }
    let human := ended {}
    List.Forall₂ Tells failed (messages quiet.notices) ∧ quiet.output ≠ "" ∧
      List.Forall₂ Tells failed (messages json.notices) ∧ json.output ≠ "" ∧
      (messages human.notices = [] ∧ ∃ sections rest,
        human.output = String.join sections ++ rest ∧ List.Forall₂ IsSection lostFiles sections) ∧
      (finish bareRequest (barePlan { quiet := true }) (lostFiles.drop 1 |>.take 1) 0).output ≠ "" := by
  intro failed ended quiet json human
  have kept : (Results.aggregate lostFiles 0).reports = lostFiles := rfl
  have notable : Notable (Results.aggregate lostFiles 0) := by
    rw [notable_iff]
    decide
  have changed : Notable (Results.aggregate (lostFiles.drop 1 |>.take 1) 0) := by
    rw [notable_iff]
    decide
  have tells (s : Settings) := finish_tells bareRequest (barePlan s) lostFiles 0
  obtain ⟨_, quietTold, quietApart, -, quietSaid⟩ := tells { quiet := true }
  obtain ⟨_, jsonTold, jsonApart, -, jsonSaid⟩ := tells { format := .json }
  obtain ⟨_, humanTold, -, humanInside, -⟩ := tells {}
  obtain ⟨-, -, -, -, changedSaid⟩ :=
    finish_tells bareRequest (barePlan { quiet := true }) (lostFiles.drop 1 |>.take 1) 0
  obtain ⟨rfl, sections⟩ := humanInside (by simp [TellsApart, barePlan, Settings.verbosity])
  rw [kept] at quietApart jsonApart sections
  have each {told : List String}
      (tell : List.Forall₂ TellsOf (lostFiles.filter fun j => j.outcome.isFailed) told) :
      List.Forall₂ Tells failed told := by
    cases tell with
    | cons first rest =>
      obtain ⟨_, found, first⟩ := first
      cases found
      cases rest with
      | cons second rest =>
        obtain ⟨_, found, second⟩ := second
        cases found
        cases rest
        exact .cons first (.cons second .nil)
  refine ⟨?_, quietSaid notable, ?_, jsonSaid notable, ⟨humanTold, sections⟩, changedSaid changed⟩
  · exact quietTold ▸ each (quietApart (.inr rfl))
  · exact jsonTold ▸ each (jsonApart (.inl (by decide)))

end XmlDelta.Run
