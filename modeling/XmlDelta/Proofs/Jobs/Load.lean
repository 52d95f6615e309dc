import XmlDelta.Proofs.Jobs.File

set_option autoImplicit false

namespace XmlDelta.Jobs

open XmlDelta.Compare (Job)
open XmlDelta.Disk (Path Tree)
open XmlDelta.Settings (Fault)

/-- A job file with its entries: the bytes there are UTF-8 for a text that lists them. -/
inductive Holds (t : Tree) (p : Path) : List Job → Prop where
  | intro {format : Option Format} {bytes : List UInt8} {cs : List Char} {jobs : List Job}
      (known : formatOf p = .ok format) (read : t.read p = .ok bytes)
      (utf8 : Text.Utf8.decode bytes = some cs)
      (listed : ofText format (String.ofList cs) = .ok jobs) : Holds t p jobs

/-- What keeps a path from being a job file with entries. -/
inductive Hindered (t : Tree) (p : Path) : Fault → Prop where
  | extension {e : String} (other : Path.extension p = some e) (notJson : e ≠ "json")
      (notToml : e ≠ "toml") : Hindered t p (.unsupportedFormat e)
  | unreadable {format : Option Format} {e : Disk.IoError} (known : formatOf p = .ok format)
      (unread : t.read p = .error e) : Hindered t p (.io e)
  | notUtf8 {format : Option Format} {bytes : List UInt8} (known : formatOf p = .ok format)
      (read : t.read p = .ok bytes) (notUtf8 : Text.Utf8.decode bytes = none) :
      Hindered t p (.io .notUtf8)
  | malformed {format : Option Format} {bytes : List UInt8} {cs : List Char} {f : Fault}
      (known : formatOf p = .ok format) (read : t.read p = .ok bytes)
      (utf8 : Text.Utf8.decode bytes = some cs)
      (malformed : ofText format (String.ofList cs) = .error f) : Hindered t p f

variable {t : Tree} {p : Path}

theorem formatOf_eq_error_iff {f : Fault} :
    formatOf p = .error f ↔
      ∃ e, Path.extension p = some e ∧ e ≠ "json" ∧ e ≠ "toml" ∧ f = .unsupportedFormat e := by
  rw [formatOf]
  cases Path.extension p with
  | none => simp
  | some e =>
    by_cases json : e = "json"
    · simp [json]
    by_cases toml : e = "toml"
    · simp [toml]
    · simp [json, toml, eq_comm]

theorem Holds.entries {jobs : List Job} (holds : Holds t p jobs) : entries t p = .ok jobs := by
  obtain ⟨known, read, utf8, listed⟩ := holds
  rw [entries_of_known known, Tree.readText_of_bytes read, utf8]
  exact listed

theorem Hindered.entries {f : Fault} (hindered : Hindered t p f) : entries t p = .error f := by
  cases hindered with
  | extension other notJson notToml =>
    have unknown := formatOf_eq_error_iff.mpr ⟨_, other, notJson, notToml, rfl⟩
    rw [Jobs.entries, unknown]
    rfl
  | unreadable known unread =>
    rw [entries_of_known known, Tree.readText_of_error unread]
    rfl
  | notUtf8 known read notUtf8 =>
    rw [entries_of_known known, Tree.readText_of_bytes read, notUtf8]
    rfl
  | malformed known read utf8 malformed =>
    rw [entries_of_known known, Tree.readText_of_bytes read, utf8]
    exact malformed

theorem holds_or_hindered (t : Tree) (p : Path) :
    (∃ jobs, Holds t p jobs) ∨ ∃ f, Hindered t p f := by
  cases known : formatOf p with
  | error f =>
    obtain ⟨e, other, notJson, notToml, -⟩ := formatOf_eq_error_iff.mp known
    exact .inr ⟨_, .extension other notJson notToml⟩
  | ok format =>
    cases read : t.read p with
    | error e => exact .inr ⟨_, .unreadable known read⟩
    | ok bytes =>
      cases utf8 : Text.Utf8.decode bytes with
      | none => exact .inr ⟨_, .notUtf8 known read utf8⟩
      | some cs =>
        cases listed : ofText format (String.ofList cs) with
        | error f => exact .inr ⟨f, .malformed known read utf8 listed⟩
        | ok jobs => exact .inl ⟨jobs, .intro known read utf8 listed⟩

theorem Holds.load {jobs : List Job} (holds : Holds t p jobs) :
    load t p = .ok (jobs.filter namesBoth) := by
  rw [Jobs.load, holds.entries, ← retainValid_eq_filter]
  rfl

theorem Hindered.load {f : Fault} (hindered : Hindered t p f) : load t p = .error f := by
  rw [Jobs.load, hindered.entries]
  rfl

theorem save_eq_unsupported_iff {jobs : List Job} {e : String} :
    save t p jobs = .error (.unsupportedFormat e) ↔
      Path.extension p = some e ∧ e ≠ "json" ∧ e ≠ "toml" := by
  cases known : formatOf p with
  | error f =>
    have refused : save t p jobs = .error f := by
      rw [save, known]
      rfl
    obtain ⟨e', other, notJson, notToml, rfl⟩ := formatOf_eq_error_iff.mp known
    rw [refused, other]
    simp only [Except.error.injEq, Fault.unsupportedFormat.injEq, Option.some.injEq]
    exact ⟨fun same => ⟨same, same ▸ notJson, same ▸ notToml⟩, fun same => same.1⟩
  | ok format =>
    have supported : ¬ (Path.extension p = some e ∧ e ≠ "json" ∧ e ≠ "toml") := by
      rintro ⟨other, notJson, notToml⟩
      have unknown := formatOf_eq_error_iff.mpr ⟨e, other, notJson, notToml, rfl⟩
      rw [known] at unknown
      cases unknown
    rw [save_of_known known]
    refine iff_of_false (fun same => ?_) supported
    cases written : t.write p (Text.Utf8.encode (toText jobs (format.getD .json)).toList) with
    | ok t' =>
      rw [written] at same
      cases same
    | error e' =>
      rw [written] at same
      cases same

end XmlDelta.Jobs
