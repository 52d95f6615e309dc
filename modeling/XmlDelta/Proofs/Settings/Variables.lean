import Mathlib.Algebra.GroupWithZero.Nat
import Mathlib.Tactic.Push
import XmlDelta.Proofs.Except
import XmlDelta.Settings.Resolve

set_option autoImplicit false

namespace XmlDelta.Settings

open XmlDelta.Text (decimalValue isDigit unsigned)

def valueOf (env : Environment) (name : String) : Option String :=
  Keyed.get? (variableName name) env

theorem valueOf_set_of_ne {env : Environment} {name other : String} (v : String)
    (ne : other ≠ name) :
    valueOf (Keyed.set (variableName name) v env) other = valueOf env other := by
  refine Keyed.get?_set_of_ne v env fun same => ne ?_
  exact (String.append_right_inj _ |>.mp same).symm

/-- The name of a format in any mixture of cases. No letter but the ASCII ones has a letter of these
names as its lower case. -/
def NamesFormat (v : String) (f : Report.Format) : Prop :=
  v.toList.map Char.toLower = f.name.toList

/-- Decimal digits, behind a plus or not, for a number of 64 bits. -/
inductive Counts (v : String) : Nat → Prop where
  | intro {ds : List Char} (signed : v.toList = ds ∨ v.toList = '+' :: ds) (nonempty : ds ≠ [])
      (digits : ∀ c ∈ ds, isDigit c = true) (fits : decimalValue ds < 2 ^ 64) :
      Counts v (decimalValue ds)

inductive Means : String → Bool → Prop where
  | yes : Means "true" true
  | no : Means "false" false

theorem ofName?_eq_some_iff {s : String} {f : Report.Format} :
    Report.Format.ofName? s = some f ↔ f.name = s := by
  constructor
  · intro found
    simpa using List.find?_some found
  · rintro rfl
    exact Report.Format.ofName?_name f

theorem readFormat_eq_some_iff (v : String) (f : Report.Format) :
    readFormat v = some f ↔ NamesFormat v f := by
  rw [readFormat, ofName?_eq_some_iff, NamesFormat, String.ext_iff, String.toList_ofList]
  exact eq_comm

-- A plus is not a digit, so only one reading of it is possible.
theorem unsigned_of_digits {cs ds : List Char} (signed : cs = ds ∨ cs = '+' :: ds)
    (digits : ∀ c ∈ ds, isDigit c = true) : unsigned cs = ds := by
  rcases signed with rfl | rfl
  · unfold unsigned
    split
    · exact absurd (digits '+' List.mem_cons_self) (by decide)
    · rfl
  · rfl

theorem signed_unsigned (cs : List Char) : cs = unsigned cs ∨ cs = '+' :: unsigned cs := by
  unfold unsigned
  split
  · exact .inr rfl
  · exact .inl rfl

theorem count?_eq_some_iff (v : String) (n : Nat) : Text.count? v = some n ↔ Counts v n := by
  constructor
  · intro read
    simp only [Text.count?] at read
    split at read
    · cases read
    · rename_i wellFormed
      split at read
      · rename_i fits
        cases read
        simp only [Bool.or_eq_true, List.isEmpty_iff, Bool.not_eq_true', not_or,
          Bool.not_eq_false, List.all_eq_true] at wellFormed
        exact .intro (signed_unsigned v.toList) wellFormed.1 wellFormed.2 fits
      · cases read
  · rintro ⟨signed, nonempty, digits, fits⟩
    rename_i ds
    have wellFormed : ds.all isDigit = true := List.all_eq_true.mpr digits
    have fits' : decimalValue ds < Number.twoTo 64 := fits
    simp [Text.count?, unsigned_of_digits signed digits, nonempty, wellFormed, fits']

theorem readBool_eq_some_iff (v : String) (b : Bool) : readBool v = some b ↔ Means v b := by
  constructor
  · intro read
    rw [readBool] at read
    split at read
    · rename_i same
      cases read
      exact same ▸ .yes
    · split at read
      · rename_i same
        cases read
        exact same ▸ .no
      · cases read
  · rintro (_ | _) <;> rfl

section

variable {α : Type}

/-- A value in layers: the option, else what the variable means, else the default. -/
inductive Layered (option? : Option α) (value? : Option String) (Reads : String → α → Prop)
    (default : α) : α → Prop where
  | asked {a : α} (given : option? = some a) : Layered option? value? Reads default a
  | set {v : String} {a : α} (absent : option? = none) (set : value? = some v)
      (reads : Reads v a) : Layered option? value? Reads default a
  | default (absent : option? = none) (unset : value? = none) :
      Layered option? value? Reads default default

def Readable (value? : Option String) (Reads : String → α → Prop) : Prop :=
  ∀ v, value? = some v → ∃ a, Reads v a

theorem Readable.of_reads {Reads : String → α → Prop} {v : String} {a : α} (reads : Reads v a) :
    Readable (some v) Reads := by
  rintro v' ⟨⟩
  exact ⟨a, reads⟩

inductive Misread (env : Environment) (name : String) (Reads : String → α → Prop) : Fault → Prop
    where
  | intro {v : String} (set : valueOf env name = some v) (unread : ∀ a, ¬ Reads v a) :
      Misread env name Reads (badVariable name v)

variable {env : Environment} {name : String} {option? : Option α} {value? : Option String}
  {Reads : String → α → Prop} {default a b : α}

theorem Layered.unique (one : Layered option? value? Reads default a)
    (other : Layered option? value? Reads default b)
    (functional : ∀ v a b, Reads v a → Reads v b → a = b) : a = b := by
  cases one with
  | asked given =>
    cases other with
    | asked given' => exact Option.some.inj (given.symm.trans given')
    | set absent _ _ | default absent _ => rw [absent] at given; cases given
  | set absent set reads =>
    cases other with
    | asked given => rw [absent] at given; cases given
    | set _ set' reads' =>
      cases Option.some.inj (set.symm.trans set')
      exact functional _ _ _ reads reads'
    | default _ unset => rw [unset] at set; cases set
  | default absent unset =>
    cases other with
    | asked given => rw [absent] at given; cases given
    | set _ set _ => rw [unset] at set; cases set
    | default _ _ => rfl

theorem Layered.withOption (below : Layered none value? Reads default a) (option? : Option α) :
    Layered option? value? Reads default (option?.getD a) := by
  cases option? with
  | none => exact below
  | some b => exact .asked rfl

theorem Layered.readable (layered : Layered none value? Reads default a) :
    Readable value? Reads := by
  intro v set
  cases layered with
  | asked given => cases given
  | set _ set' reads => exact ⟨_, Option.some.inj (set'.symm.trans set) ▸ reads⟩
  | default _ unset => rw [unset] at set; cases set

theorem Misread.congr {env' : Environment} {f : Fault} (misread : Misread env name Reads f)
    (same : valueOf env name = valueOf env' name) : Misread env' name Reads f := by
  obtain ⟨set, unread⟩ := misread
  exact .intro (same ▸ set) unread

theorem readable_or_misread (env : Environment) (name : String) (Reads : String → α → Prop) :
    Readable (valueOf env name) Reads ∨ ∃ f, Misread env name Reads f := by
  by_cases readable : Readable (valueOf env name) Reads
  · exact .inl readable
  · rw [Readable] at readable
    push Not at readable
    obtain ⟨v, set, unread⟩ := readable
    exact .inr ⟨_, .intro set unread⟩

variable {read : String → Option α} (spec : ∀ v a, read v = some a ↔ Reads v a)
include spec

theorem functional_of_reader (v : String) (a b : α) (one : Reads v a) (other : Reads v b) :
    a = b :=
  Option.some.inj (((spec v a).mpr one).symm.trans ((spec v b).mpr other))

theorem override_eq_ok_iff :
    override env name default read = .ok a ↔
      Layered none (valueOf env name) Reads default a := by
  rw [override]
  constructor
  · intro read
    split at read
    · rename_i unset
      cases read
      exact .default rfl unset
    · rename_i v set
      split at read
      · rename_i a' means
        cases read
        exact .set rfl set ((spec v _).mp means)
      · cases read
  · rintro (given | ⟨_, set, reads⟩ | ⟨_, unset⟩)
    · cases given
    · rw [valueOf] at set
      simp only [set, (spec _ _).mpr reads]
    · rw [valueOf] at unset
      simp only [unset]

theorem exists_override (readable : Readable (valueOf env name) Reads) :
    ∃ a, override env name default read = .ok a := by
  simp only [override_eq_ok_iff spec]
  cases value : valueOf env name with
  | none => exact ⟨_, .default rfl rfl⟩
  | some v =>
    obtain ⟨a, reads⟩ := readable v value
    exact ⟨a, .set rfl rfl reads⟩

theorem override_eq_error_iff {f : Fault} :
    override env name default read = .error f ↔ Misread env name Reads f := by
  rw [override]
  constructor
  · intro refused
    split at refused
    · cases refused
    · rename_i v set
      split at refused
      · cases refused
      · rename_i unread
        cases refused
        refine .intro set fun a reads => ?_
        rw [(spec v a).mpr reads] at unread
        cases unread
  · rintro ⟨set, unread⟩
    rename_i v
    have unread' : read v = none :=
      Option.eq_none_iff_forall_ne_some.mpr fun a means => unread a ((spec v a).mp means)
    rw [valueOf] at set
    simp only [set, unread']

end

theorem layered_means_iff {value? : Option String} {b : Bool} :
    Layered none value? Means false b ↔
      Readable value? Means ∧ (b = true ↔ value? = some "true") := by
  constructor
  · intro layered
    refine ⟨layered.readable, ?_⟩
    rcases layered with given | ⟨_, set, means⟩ | ⟨_, unset⟩
    · cases given
    · cases means <;> simp [set]
    · simp [unset]
  · rintro ⟨readable, same⟩
    cases value? with
    | none =>
      cases Bool.eq_false_iff.mpr fun yes => nomatch same.mp yes
      exact .default rfl rfl
    | some v =>
      obtain ⟨b', means⟩ := readable v rfl
      refine .set rfl rfl ?_
      cases means with
      | yes => exact same.mpr rfl ▸ .yes
      | no =>
        cases Bool.eq_false_iff.mpr fun yes => absurd (same.mp yes) (by decide)
        exact .no

structure Fitting (env : Environment) : Prop where
  format : Readable (valueOf env "FORMAT") NamesFormat
  jobs : Readable (valueOf env "JOBS") Counts
  verbose : Readable (valueOf env "VERBOSE") Means
  quiet : Readable (valueOf env "QUIET") Means

/-- The first variable that is set and cannot be read. -/
inductive Misfit (env : Environment) : Fault → Prop where
  | format {f : Fault} (misread : Misread env "FORMAT" NamesFormat f) : Misfit env f
  | jobs {f : Fault} (format : Readable (valueOf env "FORMAT") NamesFormat)
      (misread : Misread env "JOBS" Counts f) : Misfit env f
  | verbose {f : Fault} (format : Readable (valueOf env "FORMAT") NamesFormat)
      (jobs : Readable (valueOf env "JOBS") Counts) (misread : Misread env "VERBOSE" Means f) :
      Misfit env f
  | quiet {f : Fault} (format : Readable (valueOf env "FORMAT") NamesFormat)
      (jobs : Readable (valueOf env "JOBS") Counts)
      (verbose : Readable (valueOf env "VERBOSE") Means) (misread : Misread env "QUIET" Means f) :
      Misfit env f

theorem fitting_or_misfit (env : Environment) : Fitting env ∨ ∃ f, Misfit env f := by
  rcases readable_or_misread env "FORMAT" NamesFormat with format | ⟨f, misread⟩
  case inr => exact .inr ⟨f, .format misread⟩
  rcases readable_or_misread env "JOBS" Counts with jobs | ⟨f, misread⟩
  case inr => exact .inr ⟨f, .jobs format misread⟩
  rcases readable_or_misread env "VERBOSE" Means with verbose | ⟨f, misread⟩
  case inr => exact .inr ⟨f, .verbose format jobs misread⟩
  rcases readable_or_misread env "QUIET" Means with quiet | ⟨f, misread⟩
  case inr => exact .inr ⟨f, .quiet format jobs verbose misread⟩
  exact .inl ⟨format, jobs, verbose, quiet⟩

end XmlDelta.Settings
