import XmlDelta.Run.Program

set_option autoImplicit false

namespace XmlDelta.Run

open XmlDelta.CommandLine (Options)
open XmlDelta.Disk (Path Tree)

def settingsPaths (env : Settings.Environment) (t : Tree) (s : Settings) : List Path :=
  let m : Manager := { baseDir := s.baseDir }
  [m.baseDir, m.oldDir, m.newDir] ++ s.configFile.toList ++
    Settings.candidates env (Settings.accountHome? t) s

def optionsPaths (env : Settings.Environment) (t : Tree) (o : Options) : List Path :=
  o.baseDir.toList ++ o.saveConfig.toList ++
    match Settings.resolve env o with
    | .ok s => settingsPaths env t s
    | .error _ => []

def startPaths (args : List String) (env : Settings.Environment) (t : Tree) : List Path :=
  match CommandLine.parse args with
  | .ok o => optionsPaths env t o
  | .error _ => []

namespace Manager

def jobPaths (m : Manager) : List Path :=
  m.jobs.flatMap fun j => [Path.join m.oldDir j.oldFile, Path.join m.newDir j.newFile]

end Manager

def batches {α : Type} (n : Nat) (xs : List α) : List (List α) :=
  -- Runs of `n` items, of which the last may be shorter; a length of zero counts as one.
  match xs with
  | [] => []
  | x :: r => (x :: r.take (n - 1)) :: batches n (r.drop (n - 1))
termination_by xs.length
decreasing_by
  simp only [List.length_drop, List.length_cons]
  omega

end XmlDelta.Run
