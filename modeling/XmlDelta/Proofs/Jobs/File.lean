import XmlDelta.Jobs.File
import XmlDelta.Proofs.Disk.Write
import XmlDelta.Proofs.Jobs.Json
import XmlDelta.Proofs.Jobs.Toml

set_option autoImplicit false

namespace XmlDelta.Jobs

open XmlDelta.Compare (Job)
open XmlDelta.Disk (Path Tree)
open XmlDelta.Settings (Fault)

def namesBoth (j : Job) : Bool :=
  !Text.isBlankText j.oldFile && !Text.isBlankText j.newFile

theorem retainValid_eq_filter (jobs : List Job) : Job.retainValid jobs = jobs.filter namesBoth := by
  refine List.filter_congr fun j _ => ?_
  rw [Job.fault?, namesBoth]
  cases Text.isBlankText j.oldFile <;> cases Text.isBlankText j.newFile <;> rfl

theorem entries_of_known {t : Tree} {p : Path} {format : Option Format}
    (known : formatOf p = .ok format) :
    entries t p = (t.readText p).mapError Fault.io >>= ofText format := by
  rw [entries, known]
  rfl

theorem save_of_known {t : Tree} {p : Path} {format : Option Format}
    (known : formatOf p = .ok format) (jobs : List Job) :
    save t p jobs =
      (t.write p (Text.Utf8.encode (toText jobs (format.getD .json)).toList)).mapError Fault.io := by
  rw [save, known]
  rfl

theorem exists_save {t : Tree} {p : Path} (writable : t.Writable p) {format : Option Format}
    (known : formatOf p = .ok format) (jobs : List Job) :
    ∃ t', save t p jobs = .ok t' ∧ t'.Writable p ∧
      entries t' p = ofText format (toText jobs (format.getD .json)) := by
  obtain ⟨t', written, back, again⟩ :=
    writable.exists_write (Text.Utf8.encode (toText jobs (format.getD .json)).toList)
  refine ⟨t', ?_, again, ?_⟩
  · rw [save_of_known known, written]
    rfl
  · rw [entries_of_known known, Tree.readText_of_read back]
    rfl

theorem ofText_toJson {format : Option Format} (tried : format.getD .json = .json)
    (jobs : List Job) : ofText format (toJson jobs) = .ok jobs := by
  have read : readAs (toJson jobs) .json = .ok jobs := by
    rw [readAs, ofJson_toJson]
    rfl
  cases format with
  | none => rw [ofText, read]
  | some f =>
    cases tried
    exact read

theorem exists_save_of_reads {t : Tree} {p : Path} (writable : t.Writable p)
    {format : Option Format} (known : formatOf p = .ok format)
    (reads : ∀ jobs, ofText format (toText jobs (format.getD .json)) = .ok jobs) (jobs : List Job) :
    ∃ t', save t p jobs = .ok t' ∧ t'.Writable p ∧ load t' p = .ok (jobs.filter namesBoth) := by
  obtain ⟨t', saved, again, read⟩ := exists_save writable known jobs
  refine ⟨t', saved, again, ?_⟩
  rw [load, read, reads, ← retainValid_eq_filter]
  rfl

theorem exists_save_json {t : Tree} {p : Path} (writable : t.Writable p)
    (extension : Path.extension p = none ∨ Path.extension p = some "json") (jobs : List Job) :
    ∃ t', save t p jobs = .ok t' ∧ t'.Writable p ∧ load t' p = .ok (jobs.filter namesBoth) := by
  obtain ⟨format, known, tried⟩ : ∃ format, formatOf p = .ok format ∧ format.getD .json = .json := by
    rcases extension with bare | json
    · exact ⟨none, by rw [formatOf, bare], rfl⟩
    · exact ⟨some .json, by rw [formatOf, json]; rfl, rfl⟩
  apply exists_save_of_reads writable known
  intro jobs
  rw [tried]
  exact ofText_toJson tried jobs

theorem load_save_json {t : Tree} {p : Path} (writable : t.Writable p)
    (extension : Path.extension p = none ∨ Path.extension p = some "json") (jobs : List Job) :
    ∃ t', save t p jobs = .ok t' ∧ load t' p = .ok (jobs.filter namesBoth) ∧
      ∃ t'', save t' p (jobs.filter namesBoth) = .ok t'' ∧
        load t'' p = .ok (jobs.filter namesBoth) := by
  obtain ⟨t', saved, again, loaded⟩ := exists_save_json writable extension jobs
  obtain ⟨t'', saved', -, loaded'⟩ := exists_save_json again extension (jobs.filter namesBoth)
  rw [List.filter_filter] at loaded'
  exact ⟨t', saved, loaded, t'', saved', by simpa using loaded'⟩

theorem load_save_json_dotName :
    let t : Tree := { root := .directory [("w", .directory [])], here := ["w"] }
    let marks : Job := ⟨"\"\\", "\n\x01", ["", "t"]⟩
    let blank : Job := ⟨" ", "x", []⟩
    t.Writable "../.json" ∧ Path.extension "../.json" = none ∧
      ∃ t', save t "../.json" [marks, blank, marks] = .ok t' ∧
        load t' "../.json" = .ok [marks, marks] ∧
        ∃ t'', save t' "../.json" [marks, marks] = .ok t'' ∧
          load t'' "../.json" = .ok [marks, marks] := by
  intro t marks blank
  have writable : t.Writable "../.json" := ⟨[], _, rfl⟩
  have bare : Path.extension "../.json" = none := by decide +kernel
  have kept : [marks, blank, marks].filter namesBoth = [marks, marks] := by decide +kernel
  have saved := load_save_json writable (.inl bare) [marks, blank, marks]
  rw [kept] at saved
  exact ⟨writable, bare, saved⟩

theorem ofText_toToml (jobs : List Job) : ofText (some .toml) (toToml jobs) = .ok jobs := by
  rw [ofText, readAs, ofToml_toToml]
  rfl

theorem load_save_toml {t : Tree} {p : Path} (writable : t.Writable p)
    (extension : Path.extension p = some "toml") (jobs : List Job) :
    ∃ t', save t p jobs = .ok t' ∧ load t' p = .ok (jobs.filter namesBoth) := by
  have known : formatOf p = .ok (some .toml) := by
    rw [formatOf, extension]
    rfl
  obtain ⟨t', saved, -, loaded⟩ := exists_save_of_reads writable known ofText_toToml jobs
  exact ⟨t', saved, loaded⟩

theorem load_save_toml_forms :
    let t : Tree := { root := .directory [("w", .directory [])], here := ["w"] }
    let quotes : Job := ⟨"\n\"\"\"'\"\"", "''\\\n'", ["", "\"'\\", "'\"\"", "\x01\r\"\"\"\""]⟩
    let bare : Job := ⟨"a", "\x7f", []⟩
    let blank : Job := ⟨"x", "\t", ["t"]⟩
    t.Writable "jobs.toml" ∧ Path.extension "jobs.toml" = some "toml" ∧
      ∃ t', save t "jobs.toml" [quotes, blank, bare] = .ok t' ∧
        load t' "jobs.toml" = .ok [quotes, bare] := by
  intro t quotes bare blank
  have writable : t.Writable "jobs.toml" := ⟨[], _, rfl⟩
  have extension : Path.extension "jobs.toml" = some "toml" := by decide +kernel
  have kept : [quotes, blank, bare].filter namesBoth = [quotes, bare] := by decide +kernel
  have saved := load_save_toml writable extension [quotes, blank, bare]
  rw [kept] at saved
  exact ⟨writable, extension, saved⟩

end XmlDelta.Jobs
