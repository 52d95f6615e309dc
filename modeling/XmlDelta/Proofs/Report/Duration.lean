import XmlDelta.Proofs.Json.Reader
import XmlDelta.Proofs.Number.Binary64
import XmlDelta.Report.Duration

set_option autoImplicit false

namespace XmlDelta.Report

open XmlDelta.Compare (Micros)
open XmlDelta.Number
open XmlDelta.Text (isDigit decimalValue)

def placed (places k : Nat) : String :=
  Nat.repr (k / tenTo places) ++ "." ++
    String.ofList (padLeft places (Nat.repr (k % tenTo places)).toList)

/-- The texts of lengths of time in which nothing counts to the next unit. -/
inductive Canonical : String → Prop where
  | milliseconds {n : Nat} (short : n < 1000) : Canonical (Nat.repr n ++ "ms")
  | seconds {c : Nat} (least : 100 ≤ c) (short : c < 6000) : Canonical (placed 2 c ++ "s")
  | minutes {m t : Nat} (least : 1 ≤ m) (short : t < 600) :
      Canonical (Nat.repr m ++ "m" ++ placed 1 t ++ "s")

section Forms

theorem toList_placed_append (places k : Nat) (rest : String) :
    (placed places k ++ rest).toList = (Nat.repr (k / tenTo places)).toList ++
      '.' :: (padLeft places (Nat.repr (k % tenTo places)).toList ++ rest.toList) := by
  simp [placed]

theorem toList_milliseconds (n : Nat) :
    (Nat.repr n ++ "ms").toList = (Nat.repr n).toList ++ 'm' :: ['s'] := by
  simp

theorem toList_minutes (m t : Nat) :
    (Nat.repr m ++ "m" ++ placed 1 t ++ "s").toList =
      (Nat.repr m).toList ++ 'm' :: (placed 1 t ++ "s").toList := by
  simp

theorem repr_append_inj {m n : Nat} {c d : Char} {r r' : List Char} (ends : isDigit c = false)
    (ends' : isDigit d = false)
    (same : (Nat.repr m).toList ++ c :: r = (Nat.repr n).toList ++ d :: r') :
    m = n ∧ c = d ∧ r = r' := by
  have digits (k : Nat) : ∀ c ∈ (Nat.repr k).toList, isDigit c = true :=
    fun _ => Json.isDigit_of_mem_repr
  have number := congrArg (List.takeWhile isDigit) same
  have rest := congrArg (List.dropWhile isDigit) same
  simp only [List.takeWhile_append_of_pos (digits _), List.takeWhile_cons, ends, ends',
    Bool.false_eq_true, if_false, List.append_nil] at number
  simp only [List.dropWhile_append_of_pos (digits _), List.dropWhile_cons, ends, ends',
    Bool.false_eq_true, if_false] at rest
  have value := congrArg decimalValue number
  rw [Json.decimalValue_repr, Json.decimalValue_repr] at value
  exact ⟨value, List.cons.inj rest⟩

theorem canonical_seconds_iff {c : Nat} (least : 100 ≤ c) :
    Canonical (placed 2 c ++ "s") ↔ c < 6000 := by
  refine ⟨fun canonical => ?_, fun short => .seconds least short⟩
  generalize text : placed 2 c ++ "s" = shown at canonical
  have same := congrArg String.toList text
  rw [toList_placed_append] at same
  cases canonical with
  | milliseconds _ =>
    rw [toList_milliseconds] at same
    exact absurd (repr_append_inj (by decide) (by decide) same).2.1 (by decide)
  | seconds _ short =>
    rw [toList_placed_append] at same
    have whole := (repr_append_inj (by decide) (by decide) same).1
    simp only [tenTo, Nat.pow_eq] at whole
    omega
  | minutes _ _ =>
    rw [toList_minutes] at same
    exact absurd (repr_append_inj (by decide) (by decide) same).2.1 (by decide)

theorem canonical_minutes_iff {m t : Nat} (least : 1 ≤ m) :
    Canonical (Nat.repr m ++ "m" ++ placed 1 t ++ "s") ↔ t < 600 := by
  refine ⟨fun canonical => ?_, fun short => .minutes least short⟩
  generalize text : Nat.repr m ++ "m" ++ placed 1 t ++ "s" = shown at canonical
  have same := congrArg String.toList text
  rw [toList_minutes] at same
  cases canonical with
  | milliseconds _ =>
    rw [toList_milliseconds] at same
    have behind := (repr_append_inj (by decide) (by decide) same).2.2
    obtain ⟨c, r, digits, decimal⟩ := Json.exists_repr_eq_cons (t / tenTo 1)
    rw [toList_placed_append, digits] at behind
    rw [(List.cons.inj behind).1] at decimal
    exact absurd decimal (by decide)
  | seconds _ _ =>
    simp only [toList_placed_append] at same
    exact absurd (repr_append_inj (by decide) (by decide) same).2.1 (by decide)
  | minutes _ short =>
    rw [toList_minutes] at same
    have behind := (repr_append_inj (by decide) (by decide) same).2.2
    rw [toList_placed_append, toList_placed_append] at behind
    have whole := (repr_append_inj (by decide) (by decide) behind).1
    simp only [tenTo, Nat.pow_eq] at whole
    omega

end Forms

section Seconds

structure Made (d : Micros) (s w f : Binary64) : Prop where
  whole : Binary64.Rounds (d / microsPerSecond : Nat) w
  fraction : Binary64.Rounds ((d % microsPerSecond : Nat) / microsPerSecond) f
  sum : Binary64.Rounds (w.value + f.value) s

variable {d : Micros} {s w f : Binary64}

theorem fraction_lt (d : Micros) : ((d % microsPerSecond : Nat) : ℚ) / microsPerSecond < 1 := by
  have short : d % microsPerSecond < microsPerSecond := Nat.mod_lt d (by decide)
  rw [div_lt_one (by norm_num [microsPerSecond])]
  exact_mod_cast short

theorem Made.fraction_le (made : Made d s w f) : f.value ≤ 1 := by
  have bound := made.fraction.value_le (k := 1) (by norm_num) (by exact_mod_cast (fraction_lt d).le)
  exact_mod_cast bound

theorem whole_lt {k : Nat} (bounded : d < k * microsPerSecond) : d / microsPerSecond < k :=
  Nat.div_lt_of_lt_mul (by rwa [Nat.mul_comm])

theorem lt_greatest {q : ℚ} {g : Int} (bounded : q < 2 ^ g) (far : g ≤ 1023) :
    q < 2 ^ (1023 : Int) :=
  bounded.trans_le (Binary64.two_zpow_le far)

theorem exists_made (bounded : d < 2 ^ 64 * microsPerSecond) :
    ∃ s w f, seconds d = some s ∧ Made d s w f ∧ s.value < 2 ^ (67 : Int) := by
  have short : ((d / microsPerSecond : Nat) : ℚ) < 2 ^ (64 : Int) := by
    exact_mod_cast whole_lt bounded
  have least : ((d % microsPerSecond : Nat) : ℚ) / microsPerSecond < 2 ^ (0 : Int) := by
    simpa using fraction_lt d
  obtain ⟨w, read, whole⟩ := Binary64.exists_ofNat (lt_greatest short (by decide))
  obtain ⟨f, read', fraction⟩ :=
    Binary64.exists_rounds (by decide) (lt_greatest least (by decide))
  have most : w.value + f.value < 2 ^ (66 : Int) := by
    have one := whole.value_lt short (by decide)
    have other := fraction.value_lt least (by decide)
    norm_num at one other ⊢
    linarith
  obtain ⟨s, read'', sum⟩ := Binary64.exists_add (lt_greatest most (by decide))
  refine ⟨s, w, f, ?_, ⟨whole, fraction, sum⟩, sum.value_lt most (by decide)⟩
  simp only [seconds, read, read', Option.bind_eq_bind, Option.bind_some]
  exact read''

theorem Made.le_value {k : Nat} (made : Made d s w f) (short : k ≤ 2 ^ 53)
    (bound : k * microsPerSecond ≤ d) : k ≤ s.value := by
  have whole : k ≤ d / microsPerSecond := (Nat.le_div_iff_mul_le (by decide)).mpr bound
  have reached := made.whole.le_value short (by exact_mod_cast whole)
  have rest := f.value_nonneg
  exact made.sum.le_value short (by linarith)

theorem Made.value_le {k : Nat} (made : Made d s w f) (short : k < 2 ^ 53)
    (bound : d ≤ k * microsPerSecond) : s.value ≤ k := by
  refine made.sum.value_le short ?_
  rcases bound.eq_or_lt with rfl | below
  · have none : f.value ≤ (0 : Nat) := made.fraction.value_le (by decide) (by simp)
    have most : w.value ≤ k := made.whole.value_le short (by simp [microsPerSecond])
    push_cast at none
    linarith
  · have whole := whole_lt below
    have most := made.whole.value_le (whole.trans short) le_rfl
    have rest := made.fraction_le
    have whole' : ((d / microsPerSecond : Nat) : ℚ) + 1 ≤ k := by exact_mod_cast whole
    linarith

theorem Made.near (made : Made d s w f) (bounded : d < 2 ^ 33 * microsPerSecond) :
    |s.value - d / microsPerSecond| < 1 / microsPerSecond := by
  have short := whole_lt bounded
  have whole := made.whole.value_eq (short.trans (by decide))
  have fraction := made.fraction.abs_value_sub_le (g := 0) (by simpa using fraction_lt d) (by decide)
  have most : w.value + f.value < 2 ^ (34 : Int) := by
    have short' : ((d / microsPerSecond : Nat) : ℚ) < 2 ^ 33 := by exact_mod_cast short
    have rest := made.fraction_le
    have power : (2 : ℚ) ^ (34 : Int) = 2 ^ 33 + 2 ^ 33 := by norm_num
    rw [whole, power]
    linarith
  have sum := made.sum.abs_value_sub_le most (by decide)
  have parts : ((d / microsPerSecond : Nat) : ℚ) + (d % microsPerSecond : Nat) / microsPerSecond =
      d / microsPerSecond := by
    have division : ((d / microsPerSecond : Nat) : ℚ) * microsPerSecond +
        (d % microsPerSecond : Nat) = d := by exact_mod_cast Nat.div_add_mod' d microsPerSecond
    rw [eq_div_iff (by norm_num [microsPerSecond]), add_mul,
      div_mul_cancel₀ _ (by norm_num [microsPerSecond]), division]
  rw [whole] at sum
  rw [← parts, abs_lt]
  rw [abs_le] at sum fraction
  have small : (2 : ℚ) ^ (0 - (Binary64.precision : Int) - 1) +
      2 ^ (34 - (Binary64.precision : Int) - 1) < 1 / microsPerSecond := by
    norm_num [Binary64.precision, microsPerSecond]
  constructor
  · linarith
  · linarith

end Seconds

/-- The seconds as they are made come so close to a minute that sixty is shown. -/
inductive CountsToSixty (d : Micros) : Prop where
  | seconds {s : Binary64} (read : seconds d = some s) (least : microsPerSecond ≤ d)
      (short : d < 60 * microsPerSecond) (near : 11999 / 200 ≤ s.value)
  | minutes {s : Binary64} {k : Nat} (read : seconds d = some s) (long : 60 * microsPerSecond ≤ d)
      (near : 60 * k + 1199 / 20 ≤ s.value) (below : s.value < 60 * (k + 1))

/-- A text in the form for the length, its number the nearest to the seconds with so many places. -/
inductive Shows (d : Micros) : String → Prop where
  | milliseconds (short : d < microsPerSecond) : Shows d (Nat.repr (d / 1000) ++ "ms")
  | seconds {s : Binary64} {c : Nat} (read : seconds d = some s) (least : microsPerSecond ≤ d)
      (short : d < 60 * microsPerSecond) (nearest : |(c : ℚ) - 100 * s.value| ≤ 1 / 2) :
      Shows d (placed 2 c ++ "s")
  | minutes {s z : Binary64} {k t : Nat} (read : seconds d = some s)
      (long : 60 * microsPerSecond ≤ d) (quotient : Binary64.Rounds (s.value / 60) z)
      (past : 60 * k ≤ s.value) (below : s.value < 60 * (k + 1))
      (nearest : |(t : ℚ) - 10 * (s.value - 60 * k)| ≤ 1 / 2) :
      Shows d (Nat.repr z.floor ++ "m" ++ placed 1 t ++ "s")

section Texts

variable {d : Micros}

theorem minute_unique {v : ℚ} {k k' : Nat} (past : 60 * k ≤ v) (below : v < 60 * (k + 1))
    (past' : 60 * k' ≤ v) (below' : v < 60 * (k' + 1)) : k = k' := by
  have one : (k : ℚ) < k' + 1 := by linarith
  have other : (k' : ℚ) < k + 1 := by linarith
  have one' : k < k' + 1 := by exact_mod_cast one
  have other' : k' < k + 1 := by exact_mod_cast other
  omega

structure SecondsTold (d : Micros) (s : Binary64) (c : Nat) : Prop where
  read : seconds d = some s
  text : durationText d = placed 2 c ++ "s"
  nearest : |(c : ℚ) - 100 * s.value| ≤ 1 / 2
  least : 100 ≤ c
  most : c ≤ 6000
  sixty : 6000 ≤ c ↔ 11999 / 200 ≤ s.value

theorem exists_secondsTold (least : microsPerSecond ≤ d) (short : d < 60 * microsPerSecond) :
    ∃ s c, SecondsTold d s c := by
  have bounded : d < 2 ^ 64 * microsPerSecond :=
    short.trans_le (Nat.mul_le_mul_right _ (by decide))
  obtain ⟨s, w, f, read, made, -⟩ := exists_made bounded
  have lower : ((1 : Nat) : ℚ) ≤ s.value := made.le_value (by decide) (by rwa [Nat.one_mul])
  have upper : s.value ≤ (60 : Nat) := made.value_le (by decide) short.le
  rw [Binary64.value_eq_ratio] at lower upper
  have positive : (0 : ℚ) < s.ratio.2 := by exact_mod_cast s.ratio_pos
  rw [le_div_iff₀ positive] at lower
  rw [div_le_iff₀ positive] at upper
  refine ⟨s, divNearest (s.ratio.1 * 100) s.ratio.2, read, ?_, ?_, ?_, ?_, ?_⟩
  · rw [durationText, if_neg least.not_gt, read]
    exact if_pos short
  · rw [Binary64.value_eq_ratio]
    exact_mod_cast abs_scaled_sub_le s.ratio_pos
  · refine le_divNearest s.ratio_pos ?_
    have scaled : 1 * s.ratio.2 ≤ s.ratio.1 := by exact_mod_cast lower
    omega
  · refine divNearest_le s.ratio_pos ?_
    have scaled : s.ratio.1 ≤ 60 * s.ratio.2 := by exact_mod_cast upper
    omega
  · rw [even_le_scaled_iff s.ratio_pos (by decide), Binary64.value_eq_ratio]
    push_cast
    constructor <;> intro near <;> linarith

structure MinutesTold (d : Micros) (s z : Binary64) (k t : Nat) : Prop where
  read : seconds d = some s
  text : durationText d = Nat.repr z.floor ++ "m" ++ placed 1 t ++ "s"
  quotient : Binary64.Rounds (s.value / 60) z
  past : 60 * k ≤ s.value
  below : s.value < 60 * (k + 1)
  nearest : |(t : ℚ) - 10 * (s.value - 60 * k)| ≤ 1 / 2
  least : 1 ≤ z.floor
  most : t ≤ 600
  sixty : 600 ≤ t ↔ 60 * k + 1199 / 20 ≤ s.value

theorem exists_minutesTold (long : 60 * microsPerSecond ≤ d)
    (bounded : d < 2 ^ 64 * microsPerSecond) : ∃ s z k t, MinutesTold d s z k t := by
  obtain ⟨s, w, f, read, made, far⟩ := exists_made bounded
  have lower : ((60 : Nat) : ℚ) ≤ s.value := made.le_value (by decide) long
  push_cast at lower
  obtain ⟨y, read', sixty⟩ :=
    Binary64.exists_ofNat (n := 60) (lt_greatest (g := 6) (by norm_num) (by decide))
  have divisor : y.value = 60 := by exact_mod_cast sixty.value_eq (by decide)
  obtain ⟨z, read'', quotient⟩ := Binary64.exists_div (x := s) (y := y) (by rw [divisor]; norm_num)
    (lt_greatest (g := 67) (by rw [divisor]; linarith) (by decide))
  rw [divisor] at quotient
  have minute : ((1 : Nat) : ℚ) ≤ z.value :=
    quotient.le_value (by decide) (by push_cast; linarith)
  obtain ⟨k, rest, past, below⟩ := s.modNat_spec (n := 60) (by decide)
  have same : (s.modNat 60).2 = s.ratio.2 := rfl
  rw [same] at rest
  push_cast at rest past below
  have least : microsPerSecond ≤ d := by omega
  refine ⟨s, z, k, divNearest ((s.modNat 60).1 * 10) s.ratio.2, read, ?_, quotient, past, below,
    ?_, Binary64.le_floor minute, ?_, ?_⟩
  · rw [durationText, if_neg least.not_gt, if_neg long.not_gt, read]
    simp only [Option.getD_some, minutesText, read', Option.bind_some, read'', Option.map_some]
    rfl
  · rw [← rest]
    exact_mod_cast abs_scaled_sub_le s.ratio_pos
  · refine divNearest_le s.ratio_pos ?_
    have short := Nat.mod_lt s.ratio.1 (Nat.mul_pos (by decide : 0 < 60) s.ratio_pos)
    rw [Binary64.modNat]
    dsimp only
    omega
  · rw [even_le_scaled_iff s.ratio_pos (by decide), rest]
    push_cast
    constructor <;> intro near <;> linarith

theorem shows_durationText (bounded : d < 2 ^ 64 * microsPerSecond) : Shows d (durationText d) := by
  by_cases least : microsPerSecond ≤ d
  · by_cases short : d < 60 * microsPerSecond
    · obtain ⟨s, c, told⟩ := exists_secondsTold least short
      rw [told.text]
      exact .seconds told.read least short told.nearest
    · have long := Nat.le_of_not_lt short
      obtain ⟨s, z, k, t, told⟩ := exists_minutesTold long bounded
      rw [told.text]
      exact .minutes told.read long told.quotient told.past told.below told.nearest
  · have short := Nat.lt_of_not_le least
    rw [durationText, if_pos short]
    exact .milliseconds short

inductive Told (d : Micros) : Prop where
  | free (canonical : Canonical (durationText d)) (free : ¬ CountsToSixty d)
  | sixty (counts : CountsToSixty d) (other : ¬ Canonical (durationText d))
      (shown : durationText d = "60.00s" ∨ ∃ m, 1 ≤ m ∧ durationText d = Nat.repr m ++ "m60.0s")

theorem told_milliseconds (short : d < microsPerSecond) : Told d := by
  refine .free ?_ ?_
  · rw [durationText, if_pos short]
    exact .milliseconds (Nat.div_lt_of_lt_mul short)
  · have least := Nat.not_le_of_lt short
    rintro (⟨-, least', -, -⟩ | ⟨-, long, -, -⟩)
    · exact least least'
    · exact least (by omega)

theorem told_seconds (least : microsPerSecond ≤ d) (short : d < 60 * microsPerSecond) :
    Told d := by
  obtain ⟨s, c, told⟩ := exists_secondsTold least short
  have counts : CountsToSixty d ↔ 6000 ≤ c := by
    rw [told.sixty]
    constructor
    · rintro (⟨read, -, -, near⟩ | ⟨-, long, -, -⟩)
      · cases told.read.symm.trans read
        exact near
      · exact absurd short long.not_gt
    · exact .seconds told.read least short
  have canonical : Canonical (durationText d) ↔ c < 6000 := by
    rw [told.text, canonical_seconds_iff told.least]
  rcases told.most.eq_or_lt with rfl | below
  · exact .sixty (counts.mpr le_rfl) (mt canonical.mp (lt_irrefl _))
      (.inl (told.text.trans (by decide)))
  · exact .free (canonical.mpr below) (mt counts.mp below.not_ge)

theorem told_minutes (long : 60 * microsPerSecond ≤ d) (bounded : d < 2 ^ 64 * microsPerSecond) :
    Told d := by
  obtain ⟨s, z, k, t, told⟩ := exists_minutesTold long bounded
  have counts : CountsToSixty d ↔ 600 ≤ t := by
    rw [told.sixty]
    constructor
    · rintro (⟨-, -, short, -⟩ | ⟨read, -, near, below⟩)
      · exact absurd short long.not_gt
      · cases told.read.symm.trans read
        cases minute_unique told.past told.below (by linarith) below
        exact near
    · intro near
      exact .minutes told.read long near told.below
  have canonical : Canonical (durationText d) ↔ t < 600 := by
    rw [told.text, canonical_minutes_iff told.least]
  rcases told.most.eq_or_lt with rfl | below
  · refine .sixty (counts.mpr le_rfl) (mt canonical.mp (lt_irrefl _))
      (.inr ⟨z.floor, told.least, told.text.trans ?_⟩)
    rw [String.append_assoc, String.append_assoc]
    exact congrArg (Nat.repr z.floor ++ ·) (by decide)
  · exact .free (canonical.mpr below) (mt counts.mp below.not_ge)

theorem told (bounded : d < 2 ^ 64 * microsPerSecond) : Told d := by
  by_cases short : d < microsPerSecond
  · exact told_milliseconds short
  by_cases brief : d < 60 * microsPerSecond
  · exact told_seconds (Nat.le_of_not_lt short) brief
  · exact told_minutes (Nat.le_of_not_lt brief) bounded

example : durationText 59999000 = "60.00s" ∧ durationText 119960000 = "1m60.0s" := by
  decide +kernel

/-- Below a minute sixty is shown for the last five milliseconds; half a hundredth before the minute
the seconds are made too small. -/
theorem countsToSixty_seconds_iff (short : d < 60 * microsPerSecond) :
    CountsToSixty d ↔ 59995000 < d := by
  have bounded : d < 2 ^ 33 * microsPerSecond :=
    short.trans_le (Nat.mul_le_mul_right microsPerSecond (by decide))
  obtain ⟨s, w, f, read, made, -⟩ := exists_made
    (bounded.trans_le (Nat.mul_le_mul_right microsPerSecond (by decide)))
  have near := made.near bounded
  rw [abs_lt] at near
  norm_num [microsPerSecond] at near
  constructor
  · rintro (⟨read', -, -, reached⟩ | ⟨-, long, -, -⟩)
    · cases read.symm.trans read'
      by_contra early
      rcases (Nat.le_of_not_lt early).eq_or_lt with rfl | earlier
      · have half : seconds 59995000 = some ⟨8443545613877903, -47⟩ := by decide +kernel
        cases read.symm.trans half
        norm_num [Binary64.value] at reached
      · have earlier' : (d : ℚ) + 1 ≤ 59995000 := by exact_mod_cast earlier
        linarith
    · exact absurd short long.not_gt
  · intro late
    have late' : (59995000 : ℚ) + 1 ≤ d := by exact_mod_cast late
    refine .seconds read ?_ short (by linarith)
    exact (by decide : microsPerSecond ≤ 59995000).trans late.le

/-- Behind minutes it is shown for the last twentieth of a second; there the half goes either way.
-/
theorem countsToSixty_minutes_iff (long : 60 * microsPerSecond ≤ d)
    (bounded : d < 2 ^ 33 * microsPerSecond) (apart : d % (60 * microsPerSecond) ≠ 59950000) :
    CountsToSixty d ↔ 59950000 < d % (60 * microsPerSecond) := by
  obtain ⟨s, w, f, read, made, -⟩ := exists_made
    (bounded.trans_le (Nat.mul_le_mul_right microsPerSecond (by decide)))
  have near := made.near bounded
  rw [abs_lt] at near
  have division := Nat.div_add_mod' d (60 * microsPerSecond)
  have short := Nat.mod_lt d (by decide : 0 < 60 * microsPerSecond)
  generalize d % (60 * microsPerSecond) = r at apart division short ⊢
  generalize d / (60 * microsPerSecond) = k at division
  have begun : 60 * k * microsPerSecond ≤ d := by
    rw [← division, Nat.mul_comm 60 k, Nat.mul_assoc]
    exact Nat.le_add_right _ _
  have few : 60 * k < 2 ^ 33 := Nat.lt_of_mul_lt_mul_right (begun.trans_lt bounded)
  have minute : ((60 * k : Nat) : ℚ) ≤ s.value :=
    made.le_value (few.le.trans (by decide)) begun
  have division' : (k : ℚ) * 60000000 + r = d := by exact_mod_cast division
  have short' : (r : ℚ) + 1 ≤ 60000000 := by exact_mod_cast short
  push_cast at minute
  norm_num [microsPerSecond] at near
  constructor
  · rintro (⟨-, -, brief, -⟩ | ⟨read', -, reached, below⟩)
    · exact absurd brief long.not_gt
    · cases read.symm.trans read'
      by_contra early
      have earlier : r < 59950000 := lt_of_le_of_ne (Nat.le_of_not_lt early) apart
      have earlier' : (r : ℚ) + 1 ≤ 59950000 := by exact_mod_cast earlier
      cases minute_unique minute (by linarith) (by linarith) below
      linarith
  · intro late
    have late' : (59950000 : ℚ) + 1 ≤ r := by exact_mod_cast late
    refine .minutes (k := k) read long ?_ ?_ <;> linarith

/-- A length of time, which is below `2 ^ 64` seconds, is told in the form for it and to the
nearest. The text does not count to sixty, unless the seconds come that close to a minute; then it
is told with sixty seconds. -/
theorem durationText_canonical_iff {d : Micros} (bounded : d < 2 ^ 64 * microsPerSecond) :
    Shows d (durationText d) ∧
      (Canonical (durationText d) ↔ ¬ CountsToSixty d) ∧
      (CountsToSixty d → durationText d = "60.00s" ∨
        ∃ m, 1 ≤ m ∧ durationText d = Nat.repr m ++ "m60.0s") ∧
      (d < 60 * microsPerSecond → (CountsToSixty d ↔ 59995000 < d)) ∧
      (60 * microsPerSecond ≤ d → d < 2 ^ 33 * microsPerSecond →
        d % (60 * microsPerSecond) ≠ 59950000 →
        (CountsToSixty d ↔ 59950000 < d % (60 * microsPerSecond))) := by
  refine ⟨shows_durationText bounded, ?_, ?_, countsToSixty_seconds_iff,
    countsToSixty_minutes_iff⟩
  · cases told bounded with
    | free canonical free => exact iff_of_true canonical free
    | sixty counts other _ => exact iff_of_false other (not_not.mpr counts)
  · intro counts
    cases told bounded with
    | free _ free => exact absurd counts free
    | sixty _ _ shown => exact shown

theorem durationText_canonical_iff_late :
    Canonical (durationText 59995000) ∧ ¬ Canonical (durationText 119960000) := by
  obtain ⟨-, half, -, counts, -⟩ := durationText_canonical_iff (d := 59995000) (by decide)
  obtain ⟨-, late, -, -, counts'⟩ := durationText_canonical_iff (d := 119960000) (by decide)
  rw [half, late, not_not, counts (by decide), counts' (by decide) (by decide) (by decide)]
  decide

theorem not_always_canonical : ¬ ∀ d, d < 2 ^ 64 * microsPerSecond → Canonical (durationText d) := by
  intro all
  have canonical := all 59999000 (by decide)
  have text : durationText 59999000 = placed 2 6000 ++ "s" := by decide +kernel
  rw [text, canonical_seconds_iff (by decide)] at canonical
  exact absurd canonical (by decide)

end Texts

end XmlDelta.Report
