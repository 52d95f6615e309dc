import XmlDelta.CommandLine.Arguments
import XmlDelta.Proofs.Jobs.Load
import XmlDelta.Proofs.Settings.Variables
import XmlDelta.Settings.Search

set_option autoImplicit false

namespace XmlDelta.Settings

open XmlDelta.CommandLine (Options)
open XmlDelta.Disk (Path Tree)

/-- The settings that the layers make, whether they are sound or not. -/
structure Merged (env : Environment) (o : Options) (s : Settings) : Prop where
  baseDir : Layered o.baseDir (valueOf env "BASE_DIR") Eq "." s.baseDir
  configFile :
    Layered (o.config.map some) (valueOf env "CONFIG") (fun v p => some v = p) none s.configFile
  format : Layered o.format (valueOf env "FORMAT") NamesFormat .human s.format
  concurrency : Layered o.jobs (valueOf env "JOBS") Counts 1 s.concurrency
  -- A request for fewer words takes back one for more, and the reverse.
  verbose :
    s.verbose = true ↔ o.quiet = false ∧ (o.verbose = true ∨ valueOf env "VERBOSE" = some "true")
  quiet :
    s.quiet = true ↔ o.debug = false ∧
      (o.quiet = true ∨ (o.verbose = false ∧ valueOf env "QUIET" = some "true"))
  debug : s.debug = o.debug
  failOnChanges : s.failOnChanges = o.failOnChanges

structure Sound (s : Settings) : Prop where
  least : 1 ≤ s.concurrency
  most : s.concurrency ≤ 256
  notBoth : ¬ (s.verbose = true ∧ s.quiet = true)
  extension : ∀ p, s.configFile = some p →
    Path.extension p = none ∨ Path.extension p = some "json" ∨ Path.extension p = some "toml"

/-- The first thing that is wrong with settings as a whole. -/
inductive Unsound (s : Settings) : Fault → Prop where
  | none (none : s.concurrency = 0) :
      Unsound s (.invalid "Number of concurrent jobs must be greater than 0")
  | tooMany (many : 256 < s.concurrency) :
      Unsound s (.invalid "Number of concurrent jobs cannot exceed 256")
  | both (least : 1 ≤ s.concurrency) (most : s.concurrency ≤ 256) (verbose : s.verbose = true)
      (quiet : s.quiet = true) : Unsound s (.invalid "Cannot enable both verbose and quiet modes")
  | extension {p : Path} {e : String} (least : 1 ≤ s.concurrency) (most : s.concurrency ≤ 256)
      (notBoth : ¬ (s.verbose = true ∧ s.quiet = true)) (file : s.configFile = some p)
      (other : Path.extension p = some e) (notJson : e ≠ "json") (notToml : e ≠ "toml") :
      Unsound s (.unsupportedFormat e)

inductive Refused (env : Environment) (o : Options) : Fault → Prop where
  | misfit {f : Fault} (misfit : Misfit env f) : Refused env o f
  | unsound {s : Settings} {f : Fault} (fitting : Fitting env) (merged : Merged env o s)
      (unsound : Unsound s f) : Refused env o f

/-- The job file that is taken: one that was asked for, there or not, else the first candidate that
is there. -/
inductive Found (env : Environment) (o : Options) (t : Tree) (s : Settings) (p : Path) : Prop where
  | asked (given : o.config = some p)
  | set (absent : o.config = none) (set : valueOf env "CONFIG" = some p)
  | first {before after : List Path} (absent : o.config = none)
      (unset : valueOf env "CONFIG" = none)
      (listed : candidates env (accountHome? t) s = before ++ p :: after)
      (there : t.pathExists p = true) (missing : ∀ q ∈ before, t.pathExists q = false)

def AgreeExcept (name : String) (env env' : Environment) : Prop :=
  ∀ other, other ≠ name → valueOf env other = valueOf env' other

variable {env : Environment} {o : Options} {s : Settings} {f : Fault}

theorem Sound.check (sound : Sound s) : s.check = .ok () := by
  have bounded : ¬ greatestConcurrency < s.concurrency := Nat.not_lt.mpr sound.most
  rw [Settings.check, if_neg (Nat.one_le_iff_ne_zero.mp sound.least), if_neg bounded,
    if_neg (by simpa using sound.notBoth)]
  cases file : s.configFile with
  | none => rfl
  | some p =>
    rcases sound.extension p file with bare | json | toml
    · simp only [Jobs.formatOf, bare]
      rfl
    · simp only [Jobs.formatOf, json]
      rfl
    · simp only [Jobs.formatOf, toml]
      rfl

theorem Unsound.check (unsound : Unsound s f) : s.check = .error f := by
  cases unsound with
  | none none => rw [Settings.check, if_pos none]
  | tooMany many =>
    have unbounded : greatestConcurrency < s.concurrency := many
    rw [Settings.check, if_neg (by omega), if_pos unbounded]
    rfl
  | both least most verbose quiet =>
    have bounded : ¬ greatestConcurrency < s.concurrency := Nat.not_lt.mpr most
    rw [Settings.check, if_neg (by omega), if_neg bounded, verbose, quiet]
    rfl
  | extension least most notBoth file other notJson notToml =>
    have bounded : ¬ greatestConcurrency < s.concurrency := Nat.not_lt.mpr most
    have unknown := Jobs.formatOf_eq_error_iff.mpr ⟨_, other, notJson, notToml, rfl⟩
    rw [Settings.check, if_neg (by omega), if_neg bounded, if_neg (by simpa using notBoth), file]
    simp only [unknown]
    rfl

theorem sound_or_unsound (s : Settings) : Sound s ∨ ∃ f, Unsound s f := by
  by_cases none : s.concurrency = 0
  · exact .inr ⟨_, .none none⟩
  have least : 1 ≤ s.concurrency := Nat.one_le_iff_ne_zero.mpr none
  by_cases many : 256 < s.concurrency
  · exact .inr ⟨_, .tooMany many⟩
  have most : s.concurrency ≤ 256 := Nat.not_lt.mp many
  by_cases both : s.verbose = true ∧ s.quiet = true
  · exact .inr ⟨_, .both least most both.1 both.2⟩
  by_cases extension : ∃ p e, s.configFile = some p ∧ Path.extension p = some e ∧
      e ≠ "json" ∧ e ≠ "toml"
  · obtain ⟨p, e, file, other, notJson, notToml⟩ := extension
    exact .inr ⟨_, .extension least most both file other notJson notToml⟩
  refine .inl ⟨least, most, both, fun p file => ?_⟩
  cases other : Path.extension p with
  | none => exact .inl rfl
  | some e =>
    by_cases json : e = "json"
    · exact .inr (.inl (congrArg some json))
    by_cases toml : e = "toml"
    · exact .inr (.inr (congrArg some toml))
    exact absurd ⟨p, e, file, other, json, toml⟩ extension

theorem check_eq_ok_iff {u : Unit} : s.check = .ok u ↔ Sound s := by
  refine ⟨fun passed => ?_, Sound.check⟩
  exact (exists_ok_iff_of_either (fun sound => ⟨(), sound.check⟩) (fun _ => Unsound.check)
    (sound_or_unsound s)).mp ⟨u, passed⟩

theorem check_eq_error_iff : s.check = .error f ↔ Unsound s f :=
  error_iff_of_either (fun sound => ⟨(), sound.check⟩) (fun _ => Unsound.check) (sound_or_unsound s)

theorem path_spec (v : String) (p : Path) : some v = some p ↔ v = p :=
  Option.some_inj

theorem file_spec (v : String) (p : Option Path) : (some ∘ some) v = some p ↔ some v = p :=
  Option.some_inj

theorem exists_baseDir (env : Environment) :
    ∃ p, override env "BASE_DIR" "." some = .ok p :=
  exists_override path_spec fun v _ => ⟨v, rfl⟩

theorem exists_configFile (env : Environment) :
    ∃ p, override env "CONFIG" none (some ∘ some) = .ok p :=
  exists_override file_spec fun v _ => ⟨some v, rfl⟩

theorem ofEnvironment_eq_ok_iff :
    ofEnvironment env = .ok s ↔ Fitting env ∧ Merged env {} s := by
  simp only [ofEnvironment, bind_eq_ok_iff, override_eq_ok_iff path_spec,
    override_eq_ok_iff file_spec, override_eq_ok_iff readFormat_eq_some_iff,
    override_eq_ok_iff count?_eq_some_iff, override_eq_ok_iff readBool_eq_some_iff,
    layered_means_iff]
  constructor
  · rintro ⟨_, baseDir, _, configFile, _, format, _, concurrency, _, ⟨readable, verbose⟩, _,
      ⟨readable', quiet⟩, made⟩
    cases made
    refine ⟨⟨format.readable, concurrency.readable, readable, readable'⟩, ?_⟩
    exact ⟨baseDir, configFile, format, concurrency, by simpa using verbose, by simpa using quiet,
      rfl, rfl⟩
  · rintro ⟨fitting, merged⟩
    obtain ⟨_, _, _, _, _, _, _, _⟩ := s
    obtain ⟨baseDir, configFile, format, concurrency, verbose, quiet, rfl, rfl⟩ := merged
    exact ⟨_, baseDir, _, configFile, _, format, _, concurrency, _,
      ⟨fitting.verbose, by simpa using verbose⟩, _, ⟨fitting.quiet, by simpa using quiet⟩, rfl⟩

theorem exists_ofEnvironment (fitting : Fitting env) : ∃ s, ofEnvironment env = .ok s := by
  obtain ⟨_, baseDir⟩ := exists_baseDir env
  obtain ⟨_, configFile⟩ := exists_configFile env
  obtain ⟨_, format⟩ := exists_override readFormat_eq_some_iff fitting.format
  obtain ⟨_, jobs⟩ := exists_override count?_eq_some_iff fitting.jobs
  obtain ⟨_, verbose⟩ := exists_override readBool_eq_some_iff fitting.verbose
  obtain ⟨_, quiet⟩ := exists_override readBool_eq_some_iff fitting.quiet
  simp only [ofEnvironment, bind_eq_ok_iff]
  exact ⟨_, _, baseDir, _, configFile, _, format, _, jobs, _, verbose, _, quiet, rfl⟩

theorem Misfit.ofEnvironment (misfit : Misfit env f) : ofEnvironment env = .error f := by
  obtain ⟨_, baseDir⟩ := exists_baseDir env
  obtain ⟨_, configFile⟩ := exists_configFile env
  simp only [Settings.ofEnvironment, bind_eq_error_iff]
  refine .inr ⟨_, baseDir, .inr ⟨_, configFile, ?_⟩⟩
  -- A variable that cannot be read is met when those before it have been read.
  cases misfit with
  | format misread => exact .inl ((override_eq_error_iff readFormat_eq_some_iff).mpr misread)
  | jobs format misread =>
    obtain ⟨_, format⟩ := exists_override readFormat_eq_some_iff format
    exact .inr ⟨_, format, .inl ((override_eq_error_iff count?_eq_some_iff).mpr misread)⟩
  | verbose format jobs misread =>
    obtain ⟨_, format⟩ := exists_override readFormat_eq_some_iff format
    obtain ⟨_, jobs⟩ := exists_override count?_eq_some_iff jobs
    refine .inr ⟨_, format, .inr ⟨_, jobs, .inl ?_⟩⟩
    exact (override_eq_error_iff readBool_eq_some_iff).mpr misread
  | quiet format jobs verbose misread =>
    obtain ⟨_, format⟩ := exists_override readFormat_eq_some_iff format
    obtain ⟨_, jobs⟩ := exists_override count?_eq_some_iff jobs
    obtain ⟨_, verbose⟩ := exists_override readBool_eq_some_iff verbose
    refine .inr ⟨_, format, .inr ⟨_, jobs, .inr ⟨_, verbose, .inl ?_⟩⟩⟩
    exact (override_eq_error_iff readBool_eq_some_iff).mpr misread

theorem ofEnvironment_eq_error_iff : ofEnvironment env = .error f ↔ Misfit env f :=
  error_iff_of_either exists_ofEnvironment (fun _ => Misfit.ofEnvironment) (fitting_or_misfit env)

theorem Merged.unique {s' : Settings} (one : Merged env o s) (other : Merged env o s') :
    s = s' := by
  have baseDir := one.baseDir.unique other.baseDir (functional_of_reader path_spec)
  have configFile := one.configFile.unique other.configFile (functional_of_reader file_spec)
  have format := one.format.unique other.format (functional_of_reader readFormat_eq_some_iff)
  have concurrency :=
    one.concurrency.unique other.concurrency (functional_of_reader count?_eq_some_iff)
  have verbose := Bool.eq_iff_iff.mpr (one.verbose.trans other.verbose.symm)
  have quiet := Bool.eq_iff_iff.mpr (one.quiet.trans other.quiet.symm)
  have debug := one.debug.trans other.debug.symm
  have failOnChanges := one.failOnChanges.trans other.failOnChanges.symm
  obtain ⟨_, _, _, _, _, _, _, _⟩ := s
  obtain ⟨_, _, _, _, _, _, _, _⟩ := s'
  simp only at *
  subst baseDir configFile format concurrency verbose quiet debug failOnChanges
  rfl

theorem Merged.withOptions (below : Merged env {} s) (o : Options) :
    Merged env o (s.withOptions o) where
  baseDir := below.baseDir.withOption o.baseDir
  configFile := by
    have laid := below.configFile.withOption (o.config.map some)
    cases config : o.config with
    | none => simpa [Settings.withOptions, config] using laid
    | some p => simpa [Settings.withOptions, config] using laid
  format := below.format.withOption o.format
  concurrency := below.concurrency.withOption o.jobs
  verbose := by
    have verbose := below.verbose
    simp [Settings.withOptions, verbose]
  quiet := by
    have quiet := below.quiet
    simp [Settings.withOptions, quiet]
  debug := by
    have debug := below.debug
    simp [Settings.withOptions, debug]
  failOnChanges := by
    have failOnChanges := below.failOnChanges
    simp [Settings.withOptions, failOnChanges]

theorem exists_merged (fitting : Fitting env) (o : Options) :
    ∃ e, ofEnvironment env = .ok e ∧ Merged env o (e.withOptions o) := by
  obtain ⟨e, made⟩ := exists_ofEnvironment fitting
  exact ⟨e, made, (ofEnvironment_eq_ok_iff.mp made).2.withOptions o⟩

theorem resolve_eq_ok_iff :
    resolve env o = .ok s ↔ Fitting env ∧ Merged env o s ∧ Sound s := by
  simp only [resolve, bind_eq_ok_iff, check_eq_ok_iff]
  constructor
  · rintro ⟨e, made, -, sound, same⟩
    cases same
    have ⟨fitting, below⟩ := ofEnvironment_eq_ok_iff.mp made
    exact ⟨fitting, below.withOptions o, sound⟩
  · rintro ⟨fitting, merged, sound⟩
    obtain ⟨e, made, merged'⟩ := exists_merged fitting o
    cases merged.unique merged'
    exact ⟨e, made, (), sound, rfl⟩

theorem resolve_eq_error_iff : resolve env o = .error f ↔ Refused env o f := by
  simp only [resolve, bind_eq_error_iff, ofEnvironment_eq_error_iff, check_eq_error_iff]
  constructor
  · rintro (misfit | ⟨e, made, unsound | ⟨-, -, passed⟩⟩)
    · exact .misfit misfit
    · have ⟨fitting, below⟩ := ofEnvironment_eq_ok_iff.mp made
      exact .unsound fitting (below.withOptions o) unsound
    · cases passed
  · rintro (misfit | ⟨fitting, merged, unsound⟩)
    · exact .inl misfit
    · obtain ⟨e, made, merged'⟩ := exists_merged fitting o
      cases merged.unique merged'
      exact .inr ⟨e, made, .inl unsound⟩

section

variable {env' : Environment} {n : Nat} (agree : AgreeExcept "JOBS" env env')
include agree

theorem Merged.congr_jobs (given : o.jobs = some n) (merged : Merged env o s) :
    Merged env' o s where
  baseDir := agree "BASE_DIR" (by decide) ▸ merged.baseDir
  configFile := agree "CONFIG" (by decide) ▸ merged.configFile
  format := agree "FORMAT" (by decide) ▸ merged.format
  concurrency := by
    have replaced := merged.concurrency
    rw [given] at replaced ⊢
    generalize s.concurrency = c at replaced
    cases replaced with
    | asked given => exact .asked given
    | set absent _ _ | default absent _ => cases absent
  verbose := agree "VERBOSE" (by decide) ▸ merged.verbose
  quiet := agree "QUIET" (by decide) ▸ merged.quiet
  debug := merged.debug
  failOnChanges := merged.failOnChanges

theorem Fitting.congr_jobs (jobs : Readable (valueOf env' "JOBS") Counts)
    (fitting : Fitting env) : Fitting env' where
  format := agree "FORMAT" (by decide) ▸ fitting.format
  jobs := jobs
  verbose := agree "VERBOSE" (by decide) ▸ fitting.verbose
  quiet := agree "QUIET" (by decide) ▸ fitting.quiet

theorem Misfit.congr_jobs (before : Readable (valueOf env "JOBS") Counts)
    (after : Readable (valueOf env' "JOBS") Counts) (misfit : Misfit env f) : Misfit env' f := by
  have sameFormat := agree "FORMAT" (by decide)
  have sameVerbose := agree "VERBOSE" (by decide)
  cases misfit with
  | format misread => exact .format (misread.congr sameFormat)
  | jobs _ misread =>
    obtain ⟨set, unread⟩ := misread
    obtain ⟨n, counts⟩ := before _ set
    exact absurd counts (unread n)
  | verbose format _ misread =>
    exact .verbose (sameFormat ▸ format) after (misread.congr sameVerbose)
  | quiet format _ verbose misread =>
    have sameQuiet := agree "QUIET" (by decide)
    exact .quiet (sameFormat ▸ format) after (sameVerbose ▸ verbose) (misread.congr sameQuiet)

theorem resolve_congr_jobs (given : o.jobs = some n)
    (before : Readable (valueOf env "JOBS") Counts)
    (after : Readable (valueOf env' "JOBS") Counts) : resolve env o = resolve env' o := by
  symm
  cases resolved : resolve env o with
  | ok s =>
    have ⟨fitting, merged, sound⟩ := resolve_eq_ok_iff.mp resolved
    have merged' := merged.congr_jobs agree given
    exact resolve_eq_ok_iff.mpr ⟨fitting.congr_jobs agree after, merged', sound⟩
  | error f =>
    rw [resolve_eq_error_iff] at resolved ⊢
    cases resolved with
    | misfit misfit => exact .misfit (misfit.congr_jobs agree before after)
    | unsound fitting merged unsound =>
      exact .unsound (fitting.congr_jobs agree after) (merged.congr_jobs agree given) unsound

end

theorem Merged.verbosity_of_flags (merged : Merged env o s)
    (asked : o.verbose || o.quiet || o.debug) (free : o.hasConflict = false) :
    ¬ (s.verbose = true ∧ s.quiet = true) ∧
      s.verbosity = if o.quiet then .quiet else if o.debug then .debug else .verbose := by
  have verbose := merged.verbose
  have quiet := merged.quiet
  have debug := merged.debug
  rw [Options.hasConflict] at free
  simp only [Settings.verbosity, debug]
  cases q : o.quiet with
  | true =>
    have apart : o.verbose = false ∧ o.debug = false := by simpa [q] using free
    simp [verbose, quiet, q, apart]
  | false =>
    cases d : o.debug with
    | true => simp [quiet, q, d]
    | false =>
      have asked : o.verbose = true := by simpa [q, d] using asked
      simp [verbose, quiet, q, d, asked]

theorem Merged.configFile_eq (merged : Merged env o s) :
    s.configFile = o.config.orElse fun _ => valueOf env "CONFIG" := by
  refine merged.configFile.unique ?_ (functional_of_reader file_spec)
  cases given : o.config with
  | some p => exact .asked rfl
  | none =>
    cases set : valueOf env "CONFIG" with
    | some v => exact .set rfl rfl rfl
    | none => exact .default rfl rfl

theorem findConfig_eq_some_iff {t : Tree} {p : Path} (merged : Merged env o s) :
    findConfig env t s = some p ↔ Found env o t s p := by
  rw [findConfig, merged.configFile_eq]
  constructor
  · intro found
    cases given : o.config with
    | some q =>
      rw [given] at found
      exact .asked (given.trans found)
    | none =>
      cases set : valueOf env "CONFIG" with
      | some q =>
        rw [given, set] at found
        exact .set given (set.trans found)
      | none =>
        rw [given, set] at found
        obtain ⟨there, before, after, listed, missing⟩ := List.find?_eq_some_iff_append.mp found
        exact .first given set listed there (by simpa using missing)
  · rintro (given | ⟨absent, set⟩ | ⟨absent, unset, listed, there, missing⟩)
    · rw [given]
      rfl
    · rw [absent, set]
      rfl
    · rw [absent, unset]
      exact List.find?_eq_some_iff_append.mpr ⟨there, _, _, listed, by simpa using missing⟩

end XmlDelta.Settings
