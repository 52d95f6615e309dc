import XmlDelta.Proofs.Document.Lines
import XmlDelta.Proofs.Json.Printable
import XmlDelta.Proofs.Report.Color
import XmlDelta.Report.Text

set_option autoImplicit false

namespace XmlDelta.Document.Element

def strings (e : Element) : List String :=
  e.nodes.flatMap fun x =>
    x.tag :: x.text.toList ++ x.attributes.entries.flatMap fun a => [a.1, a.2]

theorem freeOf_of_strings {c : Char} {e : Element} (free : ∀ s ∈ e.strings, c ∉ s.toList) :
    e.FreeOf c := by
  intro x inside
  have own : ∀ s ∈ x.tag :: x.text.toList ++ x.attributes.entries.flatMap fun a => [a.1, a.2],
      c ∉ s.toList := fun s listed => free s (List.mem_flatMap.mpr ⟨x, inside, listed⟩)
  constructor
  · exact own x.tag (by simp)
  · intro a entry
    have pair (s : String) (part : s ∈ [a.1, a.2]) : c ∉ s.toList :=
      own s (List.mem_append_right _ (List.mem_flatMap.mpr ⟨a, entry, part⟩))
    exact ⟨pair a.1 (by simp), pair a.2 (by simp)⟩
  · unfold trimmedText
    cases given : x.text with
    | none => simp
    | some s =>
      rw [Text.toList_trim]
      exact fun shown => own s (by simp [given]) (Text.mem_of_mem_trimChars shown)

end XmlDelta.Document.Element

namespace XmlDelta.Compare

def InvalidReason.strings : InvalidReason → List String
  | tagNotFound _ => []
  | hierarchyMismatch oldPath newPath => oldPath ++ newPath

def Verdict.strings : Verdict → List String
  | invalid reason => reason.strings
  | compared c => (c.additions ++ c.removals).flatMap Document.Element.strings

def TagReport.strings (t : TagReport) : List String :=
  t.tag :: t.verdict.strings

def Outcome.strings : Outcome → List String
  | compared ts => ts.flatMap TagReport.strings
  | failed f => [f.message]

def JobReport.strings (r : JobReport) : List String :=
  r.label :: r.oldPath :: r.newPath :: r.outcome.strings

def Results.strings (r : Results) : List String :=
  r.reports.flatMap JobReport.strings

end XmlDelta.Compare

namespace XmlDelta.Report

open XmlDelta.Compare
open XmlDelta.Document (Element)
open XmlDelta.Number
open Fragment (plain colored)

def AllPlain (fragments : List Fragment) : Prop :=
  ∀ s ∈ fragments, s.Plain

section Texts

@[simp]
theorem esc_not_mem_toDigits (n : Nat) : esc ∉ Nat.toDigits 10 n := by
  intro inside
  rw [← Nat.toList_repr] at inside
  exact absurd (Json.isDigit_of_mem_repr inside) (by decide)

@[simp]
theorem esc_not_mem_fixedDecimal (places n d : Nat) : esc ∉ (fixedDecimal places n d).toList := by
  simp [fixedDecimal, padLeft]

@[simp]
theorem esc_not_mem_durationText (d : Micros) : esc ∉ (durationText d).toList := by
  unfold durationText minutesText
  split
  · simp
  · dsimp only
    split <;> simp

theorem esc_not_mem_intercalate {joint : String} (between : esc ∉ joint.toList) {ss : List String}
    (free : ∀ s ∈ ss, esc ∉ s.toList) : esc ∉ (String.intercalate joint ss).toList := by
  intro inside
  obtain here | ⟨s, listed, own⟩ := Text.mem_of_mem_intercalate inside
  · exact between here
  · exact free s listed own

theorem esc_not_mem_message {reason : InvalidReason} (free : ∀ s ∈ reason.strings, esc ∉ s.toList) :
    esc ∉ reason.message.toList := by
  cases reason with
  | tagNotFound side => cases side <;> decide +kernel
  | hierarchyMismatch o n =>
    obtain ⟨old, new⟩ := List.forall_mem_append.mp free
    have slash : esc ∉ "/".toList := by decide
    have oldPath := esc_not_mem_intercalate slash old
    have newPath := esc_not_mem_intercalate slash new
    unfold InvalidReason.message
    simp only [String.toList_append, List.mem_append, oldPath, newPath, or_false]
    decide

theorem esc_not_mem_render {e : Element} (free : ∀ s ∈ e.strings, esc ∉ s.toList) (n : Nat) :
    esc ∉ (e.render n).toList :=
  esc_not_mem_intercalate (by decide)
    (Element.not_mem_of_mem_lines (by decide) (Element.freeOf_of_strings free) n)

end Texts

section Fragments

@[simp]
theorem plain_plain {s : String} : (plain s).Plain ↔ esc ∉ s.toList :=
  .rfl

@[simp]
theorem plain_colored {c : Color} {s : String} : (colored c s).Plain ↔ esc ∉ s.toList :=
  .rfl

@[simp]
theorem allPlain_nil : AllPlain [] :=
  List.forall_mem_nil _

@[simp]
theorem allPlain_cons {s : Fragment} {fragments : List Fragment} :
    AllPlain (s :: fragments) ↔ s.Plain ∧ AllPlain fragments :=
  List.forall_mem_cons

@[simp]
theorem allPlain_append {xs ys : List Fragment} : AllPlain (xs ++ ys) ↔ AllPlain xs ∧ AllPlain ys :=
  List.forall_mem_append

theorem allPlain_flatMap {α : Type} {xs : List α} {strings : α → List String}
    {fragments : α → List Fragment}
    (each : ∀ x, (∀ s ∈ strings x, esc ∉ s.toList) → AllPlain (fragments x))
    (free : ∀ s ∈ xs.flatMap strings, esc ∉ s.toList) : AllPlain (xs.flatMap fragments) := by
  intro f inside
  obtain ⟨x, listed, inside⟩ := List.mem_flatMap.mp inside
  exact each x (fun s own => free s (List.mem_flatMap.mpr ⟨x, listed, own⟩)) f inside

theorem allPlain_elementFragments {es : List Element}
    (free : ∀ s ∈ es.flatMap Element.strings, esc ∉ s.toList) : AllPlain (elementFragments es) := by
  unfold elementFragments
  split
  · simp
  · rw [List.map_eq_flatMap]
    refine allPlain_flatMap (fun e own => ?_) free
    simp [esc_not_mem_render own]

theorem allPlain_verdictFragments (v : Verbosity) {r : Verdict}
    (free : ∀ s ∈ r.strings, esc ∉ s.toList) : AllPlain (verdictFragments v r) := by
  cases r with
  | invalid reason =>
    have message := esc_not_mem_message free
    cases detailed : v.isDetailed <;> simp [verdictFragments, detailed, message]
  | compared c =>
    rw [Verdict.strings, List.flatMap_append, List.forall_mem_append] at free
    simp [verdictFragments, allPlain_elementFragments free.1, allPlain_elementFragments free.2]

theorem allPlain_tagFragments (v : Verbosity) (t : TagReport)
    (free : ∀ s ∈ t.strings, esc ∉ s.toList) : AllPlain (tagFragments v t) := by
  obtain ⟨tag, verdict⟩ := List.forall_mem_cons.mp free
  simp [tagFragments, tag, allPlain_verdictFragments v verdict]

theorem allPlain_outcomeFragments (v : Verbosity) {o : Outcome}
    (free : ∀ s ∈ o.strings, esc ∉ s.toList) : AllPlain (outcomeFragments v o) := by
  cases o with
  | failed f =>
    have message := free f.message (by simp [Outcome.strings])
    simp [outcomeFragments, message]
  | compared ts => exact allPlain_flatMap (allPlain_tagFragments v) free

theorem allPlain_jobFragments (v : Verbosity) (r : JobReport)
    (free : ∀ s ∈ r.strings, esc ∉ s.toList) : AllPlain (jobFragments v r) := by
  simp only [JobReport.strings, List.forall_mem_cons] at free
  obtain ⟨label, oldPath, newPath, outcome⟩ := free
  have details : (jobDetails r).Plain := by simp [jobDetails, oldPath, newPath]
  have shown := allPlain_outcomeFragments v outcome
  unfold jobFragments
  split <;> simp [label, shown, details]

theorem allPlain_alarmLine {s : Fragment} (named : s.Plain) (n : Nat) : AllPlain (alarmLine s n) := by
  unfold alarmLine countLine
  split <;> simp [named]

theorem allPlain_summaryFragments (r : Results) : AllPlain (summaryFragments r) := by
  simp [summaryFragments, countLine, allPlain_alarmLine]

theorem allPlain_humanFragments (v : Verbosity) {r : Results}
    (free : ∀ s ∈ r.strings, esc ∉ s.toList) : AllPlain (humanFragments v r) := by
  have summary := allPlain_summaryFragments r
  have jobs := allPlain_flatMap (allPlain_jobFragments v) free
  unfold humanFragments
  split
  · split <;> simp [summary]
  · split <;> simp [summary, jobs]

end Fragments

theorem esc_not_mem_text (indent : Nat) (v : Json.Value) : esc ∉ (v.text indent).toList :=
  fun inside => absurd (v.printable_text indent esc inside) (by decide)

theorem resultsText_uncolored {r : Results} (free : ∀ s ∈ r.strings, esc ∉ s.toList)
    (v : Verbosity) (f : Format) :
    let decorated := resultsText ⟨v, f, true⟩ r
    let bare := resultsText ⟨v, f, false⟩ r
    uncolored decorated.toList = bare.toList ∧ Closed decorated.toList ∧
      (f = .json → decorated = bare) := by
  intro decorated bare
  cases f with
  | human =>
    have plain := allPlain_humanFragments v free
    exact ⟨uncolored_paint plain, closed_paint plain, fun other => absurd other (by decide)⟩
  | json =>
    have plain := esc_not_mem_text 2 (resultsValue r)
    have same := uncolored_append plain []
    have closed := closed_append plain .nil
    rw [List.append_nil] at same closed
    exact ⟨same.trans (by simp [uncolored]; rfl), closed, fun _ => rfl⟩
  | summary =>
    have plain := allPlain_summaryFragments r
    exact ⟨uncolored_paint plain, closed_paint plain, fun other => absurd other (by decide)⟩

def mixedResults : Results :=
  { reports :=
      [{ label := "a -> b", oldPath := "old/a", newPath := "new/b"
         outcome := .failed (.missingFile "old/a")
         duration := 2500 },
        { label := "c -> d", oldPath := "old/c", newPath := "new/d"
          outcome := .compared
            [⟨"t", .invalid (.hierarchyMismatch ["r"] ["r", "s"])⟩,
              ⟨"r", .compared ⟨[{ tag := "x", text := some " [31m " }], []⟩⟩]
          duration := 61000000 }]
    duration := 61002500 }

theorem resultsText_uncolored_mixed :
    let decorated := resultsText ⟨.debug, .human, true⟩ mixedResults
    let bare := resultsText ⟨.debug, .human, false⟩ mixedResults
    (∀ s ∈ mixedResults.strings, esc ∉ s.toList) ∧ decorated ≠ bare ∧
      uncolored decorated.toList = bare.toList ∧ Closed decorated.toList := by
  have free : ∀ s ∈ mixedResults.strings, esc ∉ s.toList := by decide +kernel
  obtain ⟨same, closed, -⟩ := resultsText_uncolored free .debug .human
  exact ⟨free, by decide +kernel, same, closed⟩

end XmlDelta.Report
