import XmlDelta.Proofs.Compare.Results
import XmlDelta.Proofs.Json.Reader
import XmlDelta.Report.Failure
import XmlDelta.Report.Text

set_option autoImplicit false

namespace XmlDelta.Report

open XmlDelta.Compare
open Fragment (plain)

def Tells (f : Failure) (text : String) : Prop :=
  f.message.toList <:+: text.toList

def TellsOf (r : JobReport) (text : String) : Prop :=
  ∃ f, r.outcome = .failed f ∧ Tells f text

/-- The part of a report that is about one job, which is headed by its label. -/
inductive IsSection (r : JobReport) : String → Prop where
  | intro {body : String} (failure : ∀ f, r.outcome = .failed f → Tells f body) :
      IsSection r ("\n=== Comparison: " ++ r.label ++ " ===\n" ++ body)

theorem tells_append (f : Failure) (before behind : String) :
    Tells f (before ++ f.message ++ behind) := by
  simp [Tells]

theorem tells_failureText (v : Verbosity) (clock : Option String) (f : Failure) :
    Tells f (failureText v clock f) := by
  unfold failureText
  generalize (clock.map fun t => "[" ++ t ++ "] ").getD "" = time
  cases v with
  | quiet => simpa using tells_append f (if f.isFatal then "FATAL: " else "ERROR: ") ""
  | normal => simpa using tells_append f (time ++ "Error: ") ""
  | verbose => exact tells_append f (time ++ "Error: ") (adviceText f)
  | debug =>
    have told := tells_append f (time ++ "Error: ")
      (adviceText f ++ "\nDebug Info: " ++ f.debug ++ chainText f)
    simpa only [String.append_assoc] using told

section Painted

variable (colors : Bool)

theorem paint_append (xs ys : List Fragment) :
    paint colors (xs ++ ys) = paint colors xs ++ paint colors ys := by
  simp [paint]

theorem paint_flatMap {α : Type} (fragments : α → List Fragment) (xs : List α) :
    paint colors (xs.flatMap fragments) = String.join (xs.map fun x => paint colors (fragments x)) := by
  induction xs with
  | nil => rfl
  | cons x xs ih => rw [List.flatMap_cons, paint_append, ih, List.map_cons, String.join_cons]

theorem infix_paint {s : Fragment} {fragments : List Fragment} (inside : s ∈ fragments) :
    s.text.toList <:+: (paint colors fragments).toList := by
  have own : s.text.toList <:+: (s.paint colors).toList := by
    obtain ⟨text, _ | c⟩ := s
    · exact List.infix_refl _
    · cases colors with
      | false => exact List.infix_refl _
      | true =>
        have framed := List.infix_append (Fragment.escape ++ c.code ++ "m").toList text.toList
          (Fragment.escape ++ "0m").toList
        simpa [Fragment.paint] using framed
  have painted : (s.paint colors).toList <:+: (paint colors fragments).toList := by
    rw [paint, String.toList_join, List.flatMap_map]
    exact List.infix_of_mem_flatten (List.mem_map_of_mem inside)
  exact own.trans painted

theorem paint_ne_empty {s : Fragment} {fragments : List Fragment} (inside : s ∈ fragments)
    (said : s.text ≠ "") : paint colors fragments ≠ "" := by
  intro silent
  have shown := infix_paint colors inside
  rw [silent, String.toList_empty, List.infix_nil, String.toList_eq_nil_iff] at shown
  exact said shown

theorem isSection_jobFragments (v : Verbosity) (r : JobReport) :
    IsSection r (paint colors (jobFragments v r)) := by
  have headed : paint colors (jobFragments v r) = "\n=== Comparison: " ++ r.label ++ " ===\n" ++
      paint colors (outcomeFragments v r.outcome ++ if v = .debug then [jobDetails r] else []) := by
    rw [jobFragments, List.cons_append, ← List.singleton_append, paint_append]
    simp [paint, Fragment.paint, plain]
  rw [headed]
  refine .intro fun f failed => ?_
  have line : plain (" " ++ f.message ++ "\n") ∈
      outcomeFragments v r.outcome ++ if v = .debug then [jobDetails r] else [] := by
    simp [failed, outcomeFragments]
  exact (tells_append f " " "\n").trans (infix_paint colors line)

end Painted

theorem summaryText_ne_empty (colors : Bool) (r : Results) :
    paint colors (summaryFragments r) ≠ "" :=
  paint_ne_empty colors (s := plain "Comparison Summary:\n") (by simp [summaryFragments]) (by decide)

theorem text_ne_empty (indent : Nat) (v : Json.Value) : v.text indent ≠ "" := by
  obtain ⟨c, r, text, -⟩ := Json.chars_solid indent 0 v
  intro silent
  have nothing := congrArg String.toList silent
  rw [Json.Value.text, String.toList_ofList, text] at nothing
  cases nothing

/-- Some job of the results failed, or has a tag that is invalid or changed. -/
def Notable (r : Results) : Prop :=
  ∃ j ∈ r.reports, j.Faulty ∨ j.Changed

theorem notable_iff (r : Results) :
    Notable r ↔ (r.hasChanges || r.hasFailures) = true := by
  rw [Bool.or_eq_true, Results.hasChanges_iff, Results.hasFailures_iff]
  constructor
  · rintro ⟨j, kept, faulty | changed⟩
    · exact .inr ⟨j, kept, faulty⟩
    · exact .inl ⟨j, kept, changed⟩
  · rintro (⟨j, kept, changed⟩ | ⟨j, kept, faulty⟩)
    · exact ⟨j, kept, .inr changed⟩
    · exact ⟨j, kept, .inl faulty⟩

/-- The reports that say nothing. -/
inductive Silent (r : Results) : View → Prop where
  | quiet {colors : Bool} (calm : ¬ Notable r) : Silent r ⟨.quiet, .human, colors⟩
  | normal {colors : Bool} (none : r.reports = []) : Silent r ⟨.normal, .human, colors⟩

theorem break_mem_humanFragments {v : Verbosity} (detailed : v.isDetailed = true) (r : Results) :
    plain "\n" ∈ humanFragments v r := by
  have loud : v ≠ .quiet := by
    rintro rfl
    cases detailed
  simp [humanFragments, loud, detailed]

theorem resultsText_eq_empty_iff (view : View) (r : Results) :
    resultsText view r = "" ↔ Silent r view := by
  obtain ⟨verbosity, format, colors⟩ := view
  constructor
  · intro silent
    cases format with
    | json => exact absurd silent (text_ne_empty 2 _)
    | summary => exact absurd silent (summaryText_ne_empty colors r)
    | human =>
      change paint colors (humanFragments verbosity r) = "" at silent
      cases verbosity with
      | quiet =>
        rw [humanFragments, if_pos rfl] at silent
        split at silent
        · exact absurd silent (summaryText_ne_empty colors r)
        · rename_i calm
          exact .quiet (mt (notable_iff r).mp calm)
      | normal =>
        refine .normal (List.eq_nil_iff_forall_not_mem.mpr fun j kept => ?_)
        have headed : plain ("\n=== Comparison: " ++ j.label ++ " ===\n") ∈
            r.reports.flatMap (jobFragments .normal) :=
          List.mem_flatMap.mpr ⟨j, kept, List.mem_append_left _ List.mem_cons_self⟩
        exact paint_ne_empty colors (List.mem_append_left _ headed) (by simp [plain]) silent
      | verbose | debug =>
        exact absurd silent (paint_ne_empty colors (break_mem_humanFragments rfl r) (by decide))
  · rintro (calm | none)
    · have quiet := mt (notable_iff r).mpr calm
      change paint _ (humanFragments .quiet r) = ""
      rw [humanFragments, if_pos rfl, if_neg quiet]
      rfl
    · change paint _ (humanFragments .normal r) = ""
      simp [humanFragments, none, Verbosity.isDetailed, paint]

theorem resultsText_ne_empty {r : Results} (notable : Notable r) (view : View) :
    resultsText view r ≠ "" := by
  intro silent
  obtain calm | none := (resultsText_eq_empty_iff view r).mp silent
  · exact calm notable
  · obtain ⟨j, kept, -⟩ := notable
    rw [none] at kept
    cases kept

end XmlDelta.Report
