import XmlDelta.Proofs.CommandLine.Tags
import XmlDelta.Run.Program

set_option autoImplicit false

namespace XmlDelta.Run

open XmlDelta.CommandLine (Clean Options)
open XmlDelta.Compare (Job)
open XmlDelta.Disk (Path Tree)
open XmlDelta.Settings (Environment)

namespace Plan

variable (p : Plan)

@[simp]
theorem manager_log (rs : List Record) : (p.log rs).manager = p.manager :=
  rfl

@[simp]
theorem manager_status (text : String) : (p.status text).manager = p.manager := by
  rw [status]
  split <;> rfl

@[simp]
theorem manager_saveTo (path : Path) : (saveTo path p).manager = p.manager := by
  unfold saveTo
  split <;> rfl

@[simp]
theorem manager_announce : p.announce.manager = p.manager := by
  simp [announce]

theorem manager_gather {o : Options} {j : Job} (given : o.job? = some j) (env : Environment) :
    (gather env o p).manager = p.manager.add [j] := by
  rw [gather, given]

end Plan

theorem jobs_of_planOf {q : Request} {o : Options} {s : Settings} {p : Plan} {j : Job}
    (given : o.job? = some j) (planned : planOf q o s = .ok p) : p.manager.jobs = [j] := by
  unfold planOf at planned
  dsimp only at planned
  split at planned
  · cases planned
  · cases planned
    cases o.saveConfig with
    | none => simp [Plan.manager_gather _ given, Manager.add]
    | some path => simp [Plan.manager_gather _ given, Manager.add]

theorem exists_options_of_start {q : Request} {p : Plan} (started : start q = .ok p) :
    ∃ o s, CommandLine.parse q.arguments = .ok o ∧ o.fault? q.disk = none ∧
      planOf q o s = .ok p := by
  rw [start] at started
  split at started
  · cases started
  · rename_i o parsed
    split at started
    · cases started
    · rename_i sound
      split at started
      · cases started
      · rename_i s resolved
        exact ⟨o, s, parsed, sound, started⟩

theorem tags_of_arguments (o : Options) (xs ys : List String) :
    let tags (lists : List String) := ({ o with tagLists := lists } : Options).tags
    tags xs = tags [String.intercalate "," xs] ∧
      tags (xs ++ ys) = tags xs ++ tags ys ∧
      tags (tags xs) = tags xs ∧
      (∀ tag ∈ tags xs, Clean tag) ∧
      ∀ (a b : String), o.oldFile = some a → o.newFile = some b →
        (∀ t : Tree, o.fault? t = none → (∃ tag ∈ o.tags, Clean tag) ∧
          ∀ env p, (Plan.gather env o p).manager = p.manager.add [⟨a, b, o.tags⟩]) ∧
        ∀ q p, CommandLine.parse q.arguments = .ok o → start q = .ok p →
          p.manager.jobs = [⟨a, b, o.tags⟩] ∧ ∃ tag ∈ o.tags, Clean tag := by
  intro tags
  have clean (lists : List String) : ∀ tag ∈ tags lists, Clean tag :=
    fun _ => Options.clean_of_mem_tags
  refine ⟨?_, List.flatMap_append, ?_, clean xs, fun a b old new => ?_⟩
  · have joined := CommandLine.tagsOf_intercalate xs
    exact joined.symm.trans (List.flatMap_singleton ..).symm
  · exact CommandLine.flatMap_tagsOf_of_clean (clean xs)
  · have given := Options.job?_of_files old new
    have some_tag {t : Tree} (sound : o.fault? t = none) : ∃ tag ∈ o.tags, Clean tag := by
      have named := Options.tags_ne_nil_of_sound sound (by rw [given]; rfl)
      obtain ⟨tag, inside⟩ := List.exists_mem_of_ne_nil _ named
      exact ⟨tag, inside, Options.clean_of_mem_tags inside⟩
    refine ⟨fun t sound => ⟨some_tag sound, fun env p => p.manager_gather given env⟩, ?_⟩
    intro q p parsed started
    obtain ⟨o', s, parsed', sound, planned⟩ := exists_options_of_start started
    cases parsed.symm.trans parsed'
    exact ⟨jobs_of_planOf given planned, some_tag sound⟩

def scatteredTags : Request :=
  { arguments := ["--old", "a", "--new", "b", "--tag", " x ,, y", "--tag", " ", "--tag", "z,"]
    environment := []
    disk := {}
    clock := ""
    colors := false }

theorem tags_of_arguments_scattered :
    ∃ o p, (CommandLine.parse scatteredTags.arguments = .ok o ∧ o.fault? {} = none ∧
        start scatteredTags = .ok p) ∧
      o.tags = ["x", "y", "z"] ∧ (∃ tag ∈ o.tags, Clean tag) ∧
      (∀ env p, (Plan.gather env o p).manager = p.manager.add [⟨"a", "b", o.tags⟩]) ∧
      p.manager.jobs = [⟨"a", "b", o.tags⟩] := by
  let o : Options := { oldFile := some "a", newFile := some "b", tagLists := [" x ,, y", " ", "z,"] }
  have parsed : CommandLine.parse scatteredTags.arguments = .ok o := rfl
  have sound : o.fault? {} = none := by decide
  have begins : (start scatteredTags).isOk = true := by decide +kernel
  obtain ⟨-, -, -, -, adHoc⟩ := tags_of_arguments o [] []
  obtain ⟨added, runs⟩ := adHoc "a" "b" rfl rfl
  cases started : start scatteredTags with
  | error refusal => simp [started, Except.isOk, Except.toBool] at begins
  | ok p =>
    exact ⟨o, p, ⟨parsed, sound, rfl⟩, by decide, (added {} sound).1, (added {} sound).2,
      (runs _ p parsed started).1⟩

end XmlDelta.Run
