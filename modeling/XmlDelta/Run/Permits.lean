import XmlDelta.Run.Manager

set_option autoImplicit false

namespace XmlDelta.Run

open XmlDelta.Compare
open XmlDelta.Disk (Tree)

inductive Task where
  | waiting (j : Job)
  | running (j : Job)
  | stored (r : JobReport)
  | finished (r : JobReport)

namespace Task

def holdsPermit : Task → Bool
  | running _ => true
  | stored _ => true
  | _ => false

def isFinished : Task → Bool
  | finished _ => true
  | _ => false

def report (run : Job → JobReport) : Task → JobReport
  | waiting j => run j
  | running j => run j
  | stored r => r
  | finished r => r

end Task

/-- Tasks in the order of their jobs, and the permits that none of them holds. -/
structure Crew where
  free : Nat
  tasks : List Task

namespace Crew

def start (permits : Nat) (jobs : List Job) : Crew :=
  ⟨permits, jobs.map .waiting⟩

def held (c : Crew) : Nat :=
  c.tasks.countP Task.holdsPermit

end Crew

/-- One task goes on; a job may take any length of time. -/
inductive Step (run : Job → JobReport) : Crew → Crew → Prop where
  | acquire {free : Nat} {xs ys : List Task} {j : Job} :
      Step run ⟨free + 1, xs ++ .waiting j :: ys⟩ ⟨free, xs ++ .running j :: ys⟩
  | store {free : Nat} {xs ys : List Task} {j : Job} (d : Micros) :
      Step run ⟨free, xs ++ .running j :: ys⟩ ⟨free, xs ++ .stored ((run j).lasting d) :: ys⟩
  | release {free : Nat} {xs ys : List Task} {r : JobReport} :
      Step run ⟨free, xs ++ .stored r :: ys⟩ ⟨free + 1, xs ++ .finished r :: ys⟩

inductive Reached (run : Job → JobReport) (start : Crew) : Crew → Prop where
  | start : Reached run start start
  | step {c c' : Crew} (h : Reached run start c) (s : Step run c c') : Reached run start c'

namespace Manager

def inTurn (m : Manager) : Bool :=
  m.maxConcurrent ≤ 1 || m.jobs.length ≤ 1

variable [Text.EastAsian]

/-- The reports of a run over a disk that stays as it is, in the order of the jobs. -/
inductive Ran (m : Manager) (t : Tree) : List JobReport → Prop where
  | inTurn (alone : m.inTurn = true) {ds : List Micros} (timed : ds.length = m.jobs.length) :
      Ran m t (m.jobs.zipWith (fun j d => (m.runJob t j).lasting d) ds)
  | sideBySide (crowd : m.inTurn = false) {free : Nat} {reports : List JobReport}
      (reached : Reached (m.runJob t) (.start m.maxConcurrent m.jobs)
        ⟨free, reports.map .finished⟩) : Ran m t reports

end Manager

end XmlDelta.Run
