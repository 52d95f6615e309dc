import Mathlib.Data.List.Forall2
import XmlDelta.Proofs.Run.Interleaving
import XmlDelta.Run.Footprint

set_option autoImplicit false

namespace XmlDelta.Run

open XmlDelta.Compare
open XmlDelta.Disk (Tree)

theorem flatten_batches {α : Type} (n : Nat) (xs : List α) : (batches n xs).flatten = xs := by
  induction xs using batches.induct n with
  | case1 => simp [batches]
  | case2 x r ih => simp [batches, ih]

theorem length_le_of_mem_batches {α : Type} {n : Nat} (one : 1 ≤ n) {xs b : List α}
    (inside : b ∈ batches n xs) : b.length ≤ n := by
  induction xs using batches.induct n with
  | case1 => simp [batches] at inside
  | case2 x r ih =>
    rw [batches, List.mem_cons] at inside
    rcases inside with rfl | inside
    · rw [List.length_cons, List.length_take]
      omega
    · exact ih inside

def ReportOf (run : Job → JobReport) (j : Job) (r : JobReport) : Prop :=
  ∃ d, r = (run j).lasting d

section Crews

variable {run : Job → JobReport} {start : Crew} {free : Nat} {xs ys : List Task}

theorem Reached.acquire_all (js : List Job)
    (reached : Reached run start ⟨free + js.length, xs ++ (js.map .waiting ++ ys)⟩) :
    Reached run start ⟨free, xs ++ (js.map .running ++ ys)⟩ := by
  induction js generalizing xs with
  | nil => exact reached
  | cons j js ih =>
    have next := Reached.step reached (@Step.acquire run (free + js.length) xs _ j)
    have later : xs ++ .running j :: (js.map .waiting ++ ys) =
        (xs ++ [.running j]) ++ (js.map .waiting ++ ys) := by simp
    have rest := ih (later ▸ next)
    simpa using rest

theorem Reached.finish_all {js : List Job} {rs : List JobReport}
    (timed : List.Forall₂ (ReportOf run) js rs)
    (reached : Reached run start ⟨free, xs ++ (js.map .running ++ ys)⟩) :
    Reached run start ⟨free + js.length, xs ++ (rs.map .finished ++ ys)⟩ := by
  induction timed generalizing free xs with
  | nil => exact reached
  | @cons j r js rs first _ ih =>
    obtain ⟨d, rfl⟩ := first
    have stored := Reached.step reached (@Step.store run free xs (js.map Task.running ++ ys) j d)
    have released := Reached.step stored (@Step.release run free xs (js.map Task.running ++ ys) _)
    have later : xs ++ .finished ((run j).lasting d) :: (js.map .running ++ ys) =
        (xs ++ [.finished ((run j).lasting d)]) ++ (js.map .running ++ ys) := by simp
    have rest := ih (later ▸ released)
    simpa [Nat.add_assoc, Nat.add_comm 1] using rest

theorem Reached.batch {js : List Job} {rs : List JobReport} (fits : js.length ≤ free)
    (timed : List.Forall₂ (ReportOf run) js rs)
    (reached : Reached run start ⟨free, xs ++ (js.map .waiting ++ ys)⟩) :
    Reached run start ⟨free, xs ++ (rs.map .finished ++ ys)⟩ := by
  have whole : free - js.length + js.length = free := Nat.sub_add_cancel fits
  rw [← whole] at reached ⊢
  exact (reached.acquire_all js).finish_all timed

theorem Reached.batches {bs : List (List Job)} {rss : List (List JobReport)}
    (fits : ∀ b ∈ bs, b.length ≤ free)
    (timed : List.Forall₂ (List.Forall₂ (ReportOf run)) bs rss)
    (reached : Reached run start ⟨free, xs ++ bs.flatten.map .waiting⟩) :
    Reached run start ⟨free, xs ++ rss.flatten.map .finished⟩ := by
  induction timed generalizing xs with
  | nil => exact reached
  | @cons b rs bs rss first _ ih =>
    rw [List.flatten_cons, List.map_append] at reached
    have next := reached.batch (fits b List.mem_cons_self) first
    rw [← List.append_assoc] at next
    have rest := ih (fun b inside => fits b (List.mem_cons_of_mem _ inside)) next
    rwa [List.append_assoc, ← List.map_append] at rest

end Crews

theorem exists_times {run : Job → JobReport} {js : List Job} {rs : List JobReport}
    (timed : List.Forall₂ (ReportOf run) js rs) :
    ∃ ds : List Micros, ds.length = js.length ∧
      rs = js.zipWith (fun j d => (run j).lasting d) ds := by
  induction timed with
  | nil => exact ⟨[], rfl, rfl⟩
  | cons first _ ih =>
    obtain ⟨d, rfl⟩ := first
    obtain ⟨ds, length, rfl⟩ := ih
    exact ⟨d :: ds, congrArg Nat.succ length, rfl⟩

-- A program that starts a batch at a time, whatever time each job takes, runs as a crew may.
theorem Manager.ran_batches [Text.EastAsian] (m : Manager) (t : Tree) {rss : List (List JobReport)}
    (timed : List.Forall₂ (List.Forall₂ (ReportOf (m.runJob t))) (batches m.maxConcurrent m.jobs)
      rss) : m.Ran t rss.flatten := by
  cases alone : m.inTurn with
  | true =>
    have all : List.Forall₂ (ReportOf (m.runJob t)) m.jobs rss.flatten := by
      rw [← flatten_batches m.maxConcurrent m.jobs]
      exact List.rel_flatten timed
    obtain ⟨ds, length, same⟩ := exists_times all
    rw [same]
    exact .inTurn alone length
  | false =>
    have one : 1 ≤ m.maxConcurrent := Nat.le_of_lt (one_lt_maxConcurrent alone)
    have first : Reached (m.runJob t) (.start m.maxConcurrent m.jobs)
        ⟨m.maxConcurrent, [] ++ (batches m.maxConcurrent m.jobs).flatten.map .waiting⟩ := by
      rw [flatten_batches]
      exact .start
    exact .sideBySide alone (first.batches (fun _ => length_le_of_mem_batches one) timed)

end XmlDelta.Run
