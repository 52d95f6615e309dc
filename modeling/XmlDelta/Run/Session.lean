import XmlDelta.Run.Manager

set_option autoImplicit false

namespace XmlDelta.Run

open XmlDelta.Compare (Failure Job JobReport Results)
open XmlDelta.Disk (Path Tree)

structure Session where
  manager : Manager
  disk : Tree

inductive Action where
  | addJob (job : Job)
  | addComparison (oldFile newFile : String) (tags : List String)
  | load (path : Path)
  | save (path : Path)
  | runJob (job : Job)
  | runAll
  | ensureDirectories
  -- Files are written or removed by others, who leave this disk.
  | outside (disk : Tree)

inductive Answer where
  | done
  | loaded (count : Nat)
  | refused (fault : Settings.Fault)
  | report (report : JobReport)
  | results (results : Results)
  | failed (failure : Failure)

structure Moment where
  before : Session
  action : Action
  answer : Answer
  after : Session

namespace Session

def add (s : Session) (job : Job) : Session :=
  { s with manager := s.manager.add [job] }

def loaded (s : Session) : Except Settings.Fault (Manager × Nat) → Answer × Session
  | .ok (manager, count) => (.loaded count, { s with manager })
  | .error f => (.refused f, s)

def saved (s : Session) : Except Settings.Fault Tree → Answer × Session
  | .ok disk => (.done, { s with disk })
  | .error f => (.refused f, s)

def prepared (s : Session) : Tree × Option Failure → Answer × Session
  -- Directories that were made before a failure stay.
  | (disk, failure?) => (failure?.elim .done .failed, { s with disk })

variable [Text.EastAsian]

def act (s : Session) : Action → Answer × Session
  | .addJob job => (.done, s.add job)
  | .addComparison old new tags => (.done, s.add ⟨old, new, tags⟩)
  | .load p => s.loaded (s.manager.load s.disk p)
  | .save p => s.saved (s.manager.save s.disk p)
  | .runJob job => (.report (s.manager.runJob s.disk job), s)
  | .runAll => (.results (s.manager.runAll s.disk), s)
  | .ensureDirectories => s.prepared (s.manager.ensureDirectories s.disk)
  | .outside disk => (.done, { s with disk })

def run (s : Session) : List Action → Session
  | [] => s
  | a :: as => (s.act a).2.run as

def history (s : Session) : List Action → List Moment
  | [] => []
  | a :: as => ⟨s, a, (s.act a).1, (s.act a).2⟩ :: (s.act a).2.history as

end Session

end XmlDelta.Run
