import Mathlib.Algebra.GroupWithZero.Nat
import XmlDelta.Proofs.Compare.Results
import XmlDelta.Run.Permits

set_option autoImplicit false

namespace XmlDelta.Run

open XmlDelta.Compare
open XmlDelta.Disk (Tree)

variable {run : Job → JobReport} {c c' : Crew}

theorem Step.permits_eq (s : Step run c c') : c'.free + c'.held = c.free + c.held := by
  cases s with
  | acquire =>
    simp [Crew.held, List.countP_cons, Task.holdsPermit]
    omega
  | store d => simp [Crew.held, List.countP_cons, Task.holdsPermit]
  | release =>
    simp [Crew.held, List.countP_cons, Task.holdsPermit]
    omega

theorem Reached.permits_eq {start : Crew} (r : Reached run start c) :
    c.free + c.held = start.free + start.held := by
  induction r with
  | start => rfl
  | step _ s ih => exact s.permits_eq.trans ih

theorem Crew.held_start (permits : Nat) (jobs : List Job) : (Crew.start permits jobs).held = 0 := by
  simp [Crew.start, Crew.held, Task.holdsPermit]

theorem Reached.permits_eq_of_start {permits : Nat} {jobs : List Job}
    (r : Reached run (.start permits jobs) c) : c.free + c.held = permits := by
  rw [r.permits_eq, Crew.held_start]
  rfl

def Crew.forecast (run : Job → JobReport) (c : Crew) : List JobReport :=
  c.tasks.map fun t => (t.report run).lasting 0

theorem Step.forecast_eq (s : Step run c c') : c'.forecast run = c.forecast run := by
  cases s with
  | acquire => simp only [Crew.forecast, List.map_append, List.map_cons, Task.report]
  | store d =>
    simp only [Crew.forecast, List.map_append, List.map_cons, Task.report, JobReport.lasting]
  | release => simp only [Crew.forecast, List.map_append, List.map_cons, Task.report]

theorem Reached.forecast_eq {start : Crew} (r : Reached run start c) :
    c.forecast run = start.forecast run := by
  induction r with
  | start => rfl
  | step _ s ih => exact s.forecast_eq.trans ih

theorem Crew.exists_finished_of_all (all : c.tasks.all Task.isFinished = true) :
    ∃ reports : List JobReport, c.tasks = reports.map .finished := by
  obtain ⟨free, tasks⟩ := c
  simp only at all ⊢
  induction tasks with
  | nil => exact ⟨[], rfl⟩
  | cons t ts ih =>
    simp only [List.all_cons, Bool.and_eq_true] at all
    obtain ⟨reports, rfl⟩ := ih all.2
    cases t with
    | finished r => exact ⟨r :: reports, rfl⟩
    | _ => exact absurd all.1 (by simp [Task.isFinished])

theorem exists_step (run : Job → JobReport) (permits : 0 < c.free + c.held)
    (unfinished : c.tasks.all Task.isFinished = false) : ∃ c', Step run c c' := by
  obtain ⟨free, tasks⟩ := c
  by_cases idle : Crew.held ⟨free, tasks⟩ = 0
  · rw [idle] at permits
    obtain ⟨rest, rfl⟩ := Nat.exists_eq_add_one.mpr permits
    obtain ⟨t, inside, waits⟩ := List.all_eq_false.mp unfinished
    have noPermit : t.holdsPermit = false := by
      simpa using List.countP_eq_zero.mp idle t inside
    obtain ⟨xs, ys, rfl⟩ := List.append_of_mem inside
    cases t with
    | waiting j => exact ⟨_, .acquire⟩
    | running j => cases noPermit
    | stored r => cases noPermit
    | finished r => exact absurd rfl waits
  · obtain ⟨t, inside, holds⟩ := List.countP_pos_iff.mp (Nat.pos_of_ne_zero idle)
    obtain ⟨xs, ys, rfl⟩ := List.append_of_mem inside
    cases t with
    | waiting j => cases holds
    | running j => exact ⟨_, .store 0⟩
    | stored r => exact ⟨_, .release⟩
    | finished r => cases holds

def Task.stepsLeft : Task → Nat
  | waiting _ => 3
  | running _ => 2
  | stored _ => 1
  | finished _ => 0

def Crew.stepsLeft (c : Crew) : Nat :=
  (c.tasks.map Task.stepsLeft).sum

theorem Step.stepsLeft_eq (s : Step run c c') : c.stepsLeft = c'.stepsLeft + 1 := by
  cases s <;>
    simp only [Crew.stepsLeft, List.map_append, List.map_cons, List.sum_append, List.sum_cons,
      Task.stepsLeft] <;> omega

theorem Reached.head {c'' : Crew} (s : Step run c c') (r : Reached run c' c'') :
    Reached run c c'' := by
  induction r with
  | start => exact .step .start s
  | step _ next ih => exact .step ih next

/-- No crew that has a permit is ever stuck: each step brings the end nearer. -/
theorem exists_finished (run : Job → JobReport) (permits : 0 < c.free + c.held) :
    ∃ (free : Nat) (reports : List JobReport), Reached run c ⟨free, reports.map .finished⟩ := by
  induction left : c.stepsLeft using Nat.strongRecOn generalizing c with
  | ind n ih =>
    cases all : c.tasks.all Task.isFinished with
    | true =>
      obtain ⟨reports, same⟩ := c.exists_finished_of_all all
      exact ⟨c.free, reports, same ▸ .start⟩
    | false =>
      obtain ⟨c', s⟩ := exists_step run permits all
      have fewer : c'.stepsLeft < n := by
        have := s.stepsLeft_eq
        omega
      obtain ⟨free, reports, reached⟩ := ih _ fewer (s.permits_eq ▸ permits) rfl
      exact ⟨free, reports, reached.head s⟩

namespace Manager

section Runs

variable [Text.EastAsian] {m : Manager} {t : Tree} {reports : List JobReport}

theorem label_runJob (m : Manager) (t : Tree) (j : Job) : (m.runJob t j).label = j.label :=
  rfl

theorem lasting_runJob (m : Manager) (t : Tree) (j : Job) :
    (m.runJob t j).lasting 0 = m.runJob t j := by
  simp only [runJob, runJobIn, JobReport.lasting]

omit [Text.EastAsian] in
theorem one_lt_maxConcurrent (crowd : m.inTurn = false) : 1 < m.maxConcurrent := by
  simp only [inTurn, Bool.or_eq_false_iff, decide_eq_false_iff_not, Nat.not_le] at crowd
  exact crowd.1

theorem map_lasting_zipWith (m : Manager) (t : Tree) {js : List Job} {ds : List Micros}
    (timed : ds.length = js.length) :
    (js.zipWith (fun j d => (m.runJob t j).lasting d) ds).map (JobReport.lasting 0) =
      js.map (m.runJob t) := by
  induction js generalizing ds with
  | nil => simp
  | cons j js ih =>
    rcases ds with _ | ⟨d, ds⟩
    · simp at timed
    · rw [List.zipWith_cons_cons, List.map_cons, List.map_cons, ih (by simpa using timed)]
      rfl

theorem Ran.map_lasting_eq (ran : m.Ran t reports) :
    reports.map (JobReport.lasting 0) = m.jobs.map (m.runJob t) := by
  cases ran with
  | inTurn alone timed => exact m.map_lasting_zipWith t timed
  | sideBySide crowd reached =>
    have forecast := reached.forecast_eq
    simpa [Crew.forecast, Crew.start, Task.report, Function.comp_def, lasting_runJob]
      using forecast

theorem exists_ran (m : Manager) (t : Tree) : ∃ reports, m.Ran t reports := by
  cases alone : m.inTurn with
  | true =>
    have timed : (m.jobs.map fun _ => 0).length = m.jobs.length := List.length_map _
    exact ⟨_, .inTurn alone timed⟩
  | false =>
    have free : 0 < m.maxConcurrent := Nat.lt_of_succ_lt (one_lt_maxConcurrent alone)
    obtain ⟨_, reports, reached⟩ :=
      exists_finished (m.runJob t) (c := .start m.maxConcurrent m.jobs) (Nat.add_pos_left free _)
    exact ⟨reports, .sideBySide alone reached⟩

theorem Ran.withDuration_aggregate (ran : m.Ran t reports) (d : Micros) :
    (Results.aggregate reports d).withDuration 0 =
      Results.aggregate (m.jobs.map (m.runJob t)) 0 := by
  rw [Results.withDuration_aggregate, ran.map_lasting_eq]

theorem Ran.exists_lastOf (ran : m.Ran t reports) {j : Job} (last : Keyed.LastOf Job.label m.jobs j) :
    ∃ r, Keyed.LastOf JobReport.label reports r ∧ r.lasting 0 = m.runJob t j := by
  have last := last.of_map (f := m.runJob t) (m.label_runJob t)
  rw [← ran.map_lasting_eq] at last
  exact Keyed.exists_of_lastOf_map (JobReport.label_lasting 0) last

/-- The order of the steps shows in the times only, and a job that fails leaves the others alone. -/
theorem results_of_ran (m : Manager) (t : Tree) :
    (∃ reports, m.Ran t reports) ∧
      (∀ c, m.inTurn = false → Reached (m.runJob t) (.start m.maxConcurrent m.jobs) c →
        ∃ (free : Nat) (reports : List JobReport),
          Reached (m.runJob t) c ⟨free, reports.map .finished⟩) ∧
      (∀ c, Reached (m.runJob t) (.start m.maxConcurrent m.jobs) c → c.held ≤ m.maxConcurrent) ∧
      (∀ reports, m.Ran t reports → ∀ d, (Results.aggregate reports d).withDuration 0 =
        Results.aggregate (m.jobs.map (m.runJob t)) 0) ∧
      ∀ reports, m.Ran t reports → ∀ d j, Keyed.LastOf Job.label m.jobs j →
        ((Results.aggregate reports d).get? j.label).map (JobReport.lasting 0) =
          some (m.runJob t j) := by
  refine ⟨m.exists_ran t, ?_, ?_, fun reports ran d => ran.withDuration_aggregate d, ?_⟩
  · intro c crowd reached
    apply exists_finished
    rw [reached.permits_eq_of_start]
    exact Nat.zero_lt_of_lt (one_lt_maxConcurrent crowd)
  · intro c reached
    exact reached.permits_eq_of_start ▸ Nat.le_add_left c.held c.free
  · intro reports ran d j last
    obtain ⟨r, last, same⟩ := ran.exists_lastOf last
    have label : r.label = j.label := congrArg JobReport.label same
    rw [← label, Results.get?_aggregate_of_lastOf last, Option.map_some, same]

end Runs

def outOfOrder : Manager :=
  { baseDir := "b"
    jobs := [⟨"x", "x", ["r"]⟩, ⟨"y", "y", []⟩, ⟨"x", "x", ["s"]⟩]
    maxConcurrent := 2 }

theorem reached_outOfOrder :
    Reached (outOfOrder.runJob {}) (.start 2 outOfOrder.jobs)
      ⟨0, [.running ⟨"x", "x", ["r"]⟩, .waiting ⟨"y", "y", []⟩, .running ⟨"x", "x", ["s"]⟩]⟩ := by
  refine .step ?_ (@Step.acquire _ 0 [] [.waiting ⟨"y", "y", []⟩, .running ⟨"x", "x", ["s"]⟩] _)
  exact .step .start
    (@Step.acquire _ 1 [.waiting ⟨"x", "x", ["r"]⟩, .waiting ⟨"y", "y", []⟩] [] _)

theorem ran_outOfOrder :
    let run := outOfOrder.runJob {}
    outOfOrder.Ran {} [(run ⟨"x", "x", ["r"]⟩).lasting 9, (run ⟨"y", "y", []⟩).lasting 4,
      (run ⟨"x", "x", ["s"]⟩).lasting 7] := by
  intro run
  let b : Job := ⟨"y", "y", []⟩
  let c : Job := ⟨"x", "x", ["s"]⟩
  let ra := (run ⟨"x", "x", ["r"]⟩).lasting 9
  let rb := (run b).lasting 4
  let rc := (run c).lasting 7
  have reached : Reached run (.start 2 outOfOrder.jobs) ⟨2, [ra, rb, rc].map .finished⟩ := by
    -- The second job waits until the first has given its permit back.
    refine .step ?_ (@Step.release run 1 [.finished ra, .finished rb] [] rc)
    refine .step ?_ (@Step.store run 1 [.finished ra, .finished rb] [] c 7)
    refine .step ?_ (@Step.release run 0 [.finished ra] [.running c] rb)
    refine .step ?_ (@Step.store run 0 [.finished ra] [.running c] b 4)
    refine .step ?_ (@Step.acquire run 0 [.finished ra] [.running c] b)
    refine .step ?_ (@Step.release run 0 [] [.waiting b, .running c] ra)
    exact .step reached_outOfOrder (@Step.store run 0 [] [.waiting b, .running c] _ 9)
  exact .sideBySide rfl reached

theorem results_of_ran_outOfOrder :
    let run := outOfOrder.runJob {}
    let reports := [(run ⟨"x", "x", ["r"]⟩).lasting 9, (run ⟨"y", "y", []⟩).lasting 4,
      (run ⟨"x", "x", ["s"]⟩).lasting 7]
    let busy : Crew :=
      ⟨0, [.running ⟨"x", "x", ["r"]⟩, .waiting ⟨"y", "y", []⟩, .running ⟨"x", "x", ["s"]⟩]⟩
    let r := Results.aggregate reports 20
    (outOfOrder.Ran {} reports ∧ Keyed.LastOf Job.label outOfOrder.jobs ⟨"x", "x", ["s"]⟩ ∧
        Reached run (.start 2 outOfOrder.jobs) busy) ∧
      r.withDuration 0 = Results.aggregate (outOfOrder.jobs.map run) 0 ∧
      (r.get? "x -> x").map (JobReport.lasting 0) = some (run ⟨"x", "x", ["s"]⟩) ∧
      busy.held = 2 ∧ busy.held ≤ outOfOrder.maxConcurrent ∧
      ∃ (free : Nat) (reports : List JobReport), Reached run busy ⟨free, reports.map .finished⟩ := by
  intro run reports busy r
  have last : Keyed.LastOf Job.label outOfOrder.jobs ⟨"x", "x", ["s"]⟩ :=
    ⟨[⟨"x", "x", ["r"]⟩, ⟨"y", "y", []⟩], [], rfl, by simp⟩
  obtain ⟨-, unstuck, permits, same, found⟩ := results_of_ran outOfOrder {}
  exact ⟨⟨ran_outOfOrder, last, reached_outOfOrder⟩, same _ ran_outOfOrder 20,
    found _ ran_outOfOrder 20 _ last, rfl, permits _ reached_outOfOrder,
    unstuck _ rfl reached_outOfOrder⟩

end Manager

end XmlDelta.Run
