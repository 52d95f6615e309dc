import Mathlib.Algebra.Order.Field.Power
import Mathlib.Tactic.FieldSimp
import Mathlib.Tactic.Linarith
import Mathlib.Tactic.NormNum
import Mathlib.Tactic.Positivity
import Mathlib.Tactic.Ring
import XmlDelta.Number.Binary64

set_option autoImplicit false

namespace XmlDelta.Number

theorem le_divNearest {n d k : Nat} (positive : 0 < d) (bound : k * d ≤ n) :
    k ≤ divNearest n d := by
  by_contra below
  have upper := (divNearest_error (n := n) positive).1
  have step : (divNearest n d + 1) * d ≤ k * d := Nat.mul_le_mul_right d (by omega)
  rw [Nat.succ_mul] at step
  omega

theorem divNearest_le {n d k : Nat} (positive : 0 < d) (bound : n ≤ k * d) :
    divNearest n d ≤ k := by
  by_contra above
  have lower := (divNearest_error (n := n) positive).2
  have step : (k + 1) * d ≤ divNearest n d * d := Nat.mul_le_mul_right d (by omega)
  rw [Nat.succ_mul] at step
  omega

theorem abs_divNearest_sub_le {n d : Nat} (positive : 0 < d) :
    |(divNearest n d : ℚ) - n / d| ≤ 1 / 2 := by
  have ⟨upper, lower⟩ := divNearest_error (n := n) positive
  have positive' : (0 : ℚ) < d := by exact_mod_cast positive
  have upper' : (2 : ℚ) * n ≤ 2 * (divNearest n d * d) + d := by exact_mod_cast upper
  have lower' : (2 : ℚ) * (divNearest n d * d) ≤ 2 * n + d := by exact_mod_cast lower
  rw [abs_le]
  constructor
  · rw [neg_le_sub_iff_le_add, div_le_iff₀ positive']
    linarith
  · rw [sub_le_iff_le_add, ← sub_le_iff_le_add', le_div_iff₀ positive']
    linarith

theorem divNearest_of_half {n d q : Nat} (positive : 0 < d) (half : 2 * n = (2 * q + 1) * d) :
    divNearest n d % 2 = 0 := by
  have expanded : 2 * n = 2 * (q * d) + d := by rw [half]; ring
  have quotient : n / d = q :=
    Nat.div_eq_of_lt_le (by omega) (by rw [Nat.succ_mul]; omega)
  have remainder : 2 * (n % d) = d := by
    have division := Nat.div_add_mod' n d
    rw [quotient] at division
    omega
  simp only [divNearest, quotient, remainder, lt_irrefl, if_false]
  split <;> omega

theorem even_le_divNearest_iff {n d k : Nat} (positive : 0 < d) (even : k % 2 = 0) :
    k ≤ divNearest n d ↔ 2 * (k * d) ≤ 2 * n + d := by
  have ⟨upper, lower⟩ := divNearest_error (n := n) positive
  constructor
  · intro reached
    have step : k * d ≤ divNearest n d * d := Nat.mul_le_mul_right d reached
    omega
  · intro le
    by_contra below
    have step : (divNearest n d + 1) * d ≤ k * d := Nat.mul_le_mul_right d (by omega)
    rw [Nat.succ_mul] at step
    -- Only the half remains, and it would have gone up.
    have half : 2 * n = (2 * divNearest n d + 1) * d := by
      have expanded : (2 * divNearest n d + 1) * d = 2 * (divNearest n d * d) + d := by ring
      omega
    have next : k = divNearest n d + 1 := by
      have equal : k * d = (divNearest n d + 1) * d := by
        rw [Nat.succ_mul]
        omega
      exact Nat.eq_of_mul_eq_mul_right positive equal
    have parity := divNearest_of_half positive half
    omega

theorem even_le_scaled_iff {n d scale k : Nat} (positive : 0 < d) (even : k % 2 = 0) :
    k ≤ divNearest (n * scale) d ↔ (k : ℚ) - 1 / 2 ≤ scale * (n / d) := by
  have positive' : (0 : ℚ) < d := by exact_mod_cast positive
  rw [even_le_divNearest_iff positive even, ← mul_div_assoc, le_div_iff₀ positive', sub_mul,
    sub_le_iff_le_add]
  constructor
  · intro le
    have scaled : (2 : ℚ) * (k * d) ≤ 2 * (n * scale) + d := by exact_mod_cast le
    linarith
  · intro le
    have scaled : (2 : ℚ) * (k * d) ≤ 2 * (n * scale) + d := by linarith
    exact_mod_cast scaled

theorem abs_scaled_sub_le {n d scale : Nat} (positive : 0 < d) :
    |(divNearest (n * scale) d : ℚ) - scale * (n / d)| ≤ 1 / 2 := by
  have near := abs_divNearest_sub_le (n := n * scale) positive
  push_cast at near
  rwa [mul_comm (n : ℚ), mul_div_assoc] at near

namespace Binary64

def value (x : Binary64) : ℚ :=
  x.mantissa * 2 ^ x.exponent

theorem pow2_div_pow2_neg (e : Int) : (pow2 e : ℚ) / pow2 (-e) = 2 ^ e := by
  obtain ⟨k, rfl | rfl⟩ := e.eq_nat_or_neg
  · simp [pow2, twoTo]
  · simp [pow2, twoTo]

theorem pow2_pos (e : Int) : 0 < pow2 e :=
  twoTo_pos _

theorem ratio_pos (x : Binary64) : 0 < x.ratio.2 :=
  pow2_pos _

theorem value_eq_ratio (x : Binary64) : x.value = x.ratio.1 / x.ratio.2 := by
  rw [value, ratio, ← pow2_div_pow2_neg]
  push_cast
  ring

theorem le_floor {x : Binary64} {k : Nat} (bound : k ≤ x.value) : k ≤ x.floor := by
  rw [value_eq_ratio, le_div_iff₀ (by exact_mod_cast x.ratio_pos)] at bound
  exact (Nat.le_div_iff_mul_le x.ratio_pos).mpr (by exact_mod_cast bound)

theorem value_carry (m : Nat) (e : Int) : (carry m e).value = m * 2 ^ e := by
  rw [carry]
  split
  · rename_i long
    rw [value, long, zpow_add_one₀ (by norm_num)]
    norm_num [twoTo, precision]
    ring
  · rfl

theorem two_zpow_pos (e : Int) : (0 : ℚ) < 2 ^ e :=
  zpow_pos (by norm_num) e

theorem two_zpow_le {e f : Int} (le : e ≤ f) : (2 : ℚ) ^ e ≤ 2 ^ f :=
  zpow_le_zpow_right₀ (by norm_num) le

theorem log2_spec {n : Nat} (nonzero : 0 < n) :
    (2 : ℚ) ^ (Nat.log2 n : Int) ≤ n ∧ (n : ℚ) < 2 ^ (Nat.log2 n + 1 : Int) := by
  constructor
  · exact_mod_cast Nat.log2_self_le (Nat.pos_iff_ne_zero.mp nonzero)
  · exact_mod_cast Nat.lt_log2_self

section

variable {n d : Nat} (nonzero : 0 < n) (positive : 0 < d)
include nonzero positive

theorem div_lt_of_log2 : (n : ℚ) / d < 2 ^ ((Nat.log2 n : Int) - Nat.log2 d + 1) := by
  have positive' : (0 : ℚ) < d := by exact_mod_cast positive
  rw [div_lt_iff₀ positive']
  calc (n : ℚ) < 2 ^ (Nat.log2 n + 1 : Int) := (log2_spec nonzero).2
    _ = 2 ^ ((Nat.log2 n : Int) - Nat.log2 d + 1) * 2 ^ (Nat.log2 d : Int) := by
      rw [← zpow_add₀ (by norm_num)]
      congr 1
      omega
    _ ≤ 2 ^ ((Nat.log2 n : Int) - Nat.log2 d + 1) * d :=
      mul_le_mul_of_nonneg_left (log2_spec positive).1 (two_zpow_pos _).le

theorem le_div_of_log2 : (2 : ℚ) ^ ((Nat.log2 n : Int) - Nat.log2 d - 1) ≤ n / d := by
  have positive' : (0 : ℚ) < d := by exact_mod_cast positive
  rw [le_div_iff₀ positive']
  calc (2 : ℚ) ^ ((Nat.log2 n : Int) - Nat.log2 d - 1) * d
      ≤ 2 ^ ((Nat.log2 n : Int) - Nat.log2 d - 1) * 2 ^ (Nat.log2 d + 1 : Int) :=
        mul_le_mul_of_nonneg_left (log2_spec positive).2.le (two_zpow_pos _).le
    _ = 2 ^ (Nat.log2 n : Int) := by
      rw [← zpow_add₀ (by norm_num)]
      congr 1
      omega
    _ ≤ n := (log2_spec nonzero).1

theorem floorLog2_spec :
    (2 : ℚ) ^ floorLog2 n d ≤ n / d ∧ (n : ℚ) / d < 2 ^ (floorLog2 n d + 1) := by
  have above := div_lt_of_log2 nonzero positive
  have below := le_div_of_log2 nonzero positive
  rw [floorLog2]
  generalize (Nat.log2 n : Int) - Nat.log2 d = g at above below
  have compared : d * pow2 g ≤ n * pow2 (-g) ↔ (2 : ℚ) ^ g ≤ n / d := by
    have positive' : (0 : ℚ) < d := by exact_mod_cast positive
    have units : (0 : ℚ) < pow2 (-g) := by exact_mod_cast pow2_pos _
    rw [← pow2_div_pow2_neg, div_le_div_iff₀ units positive', mul_comm (pow2 g : ℚ)]
    exact_mod_cast Iff.rfl
  split
  · rename_i reached
    exact ⟨compared.mp reached, above⟩
  · rename_i missed
    rw [compared, not_le] at missed
    rw [sub_add_cancel]
    exact ⟨below, missed⟩

end

def unit (n d : Nat) : Int :=
  max (floorLog2 n d - (precision - 1)) leastExponent

theorem ratio_in_units (n d : Nat) (e : Int) :
    ((n * pow2 (-e) : Nat) : ℚ) / (d * pow2 e : Nat) = n / d / 2 ^ e := by
  have inverse := pow2_div_pow2_neg (-e)
  rw [neg_neg, zpow_neg] at inverse
  push_cast
  rw [mul_div_mul_comm, inverse, div_eq_mul_inv ((n : ℚ) / d)]

def roundedMantissa (n d : Nat) : Nat :=
  divNearest (n * pow2 (-unit n d)) (d * pow2 (unit n d))

theorem ofRatio_eq {n d : Nat} (nonzero : 0 < n) :
    ofRatio n d =
      if (carry (roundedMantissa n d) (unit n d)).isFinite then
        some (carry (roundedMantissa n d) (unit n d))
      else none := by
  rw [ofRatio, if_neg (Nat.pos_iff_ne_zero.mp nonzero)]
  rfl

theorem value_ofRatio {n d : Nat} {x : Binary64} (nonzero : 0 < n)
    (rounded : ofRatio n d = some x) :
    x.value = roundedMantissa n d * 2 ^ unit n d := by
  rw [ofRatio_eq nonzero] at rounded
  split at rounded
  · cases rounded
    exact value_carry _ _
  · cases rounded

section

variable {n d k : Nat} (positive : 0 < d)
include positive

theorem units_pos (e : Int) : 0 < d * pow2 e :=
  Nat.mul_pos positive (pow2_pos e)

theorem le_roundedMantissa (bound : (k : ℚ) * 2 ^ unit n d ≤ n / d) :
    k ≤ roundedMantissa n d := by
  have positive' := units_pos positive (unit n d)
  refine le_divNearest positive' ?_
  rw [← le_div_iff₀ (two_zpow_pos _), ← ratio_in_units, le_div_iff₀ (by exact_mod_cast positive')]
    at bound
  exact_mod_cast bound

theorem roundedMantissa_le (bound : (n : ℚ) / d ≤ k * 2 ^ unit n d) :
    roundedMantissa n d ≤ k := by
  have positive' := units_pos positive (unit n d)
  refine divNearest_le positive' ?_
  rw [← div_le_iff₀ (two_zpow_pos _), ← ratio_in_units, div_le_iff₀ (by exact_mod_cast positive')]
    at bound
  exact_mod_cast bound

theorem abs_roundedMantissa_sub_le :
    |(roundedMantissa n d : ℚ) * 2 ^ unit n d - n / d| ≤ 2 ^ unit n d / 2 := by
  have near := abs_divNearest_sub_le (n := n * pow2 (-unit n d)) (units_pos positive (unit n d))
  rw [ratio_in_units] at near
  have scaled := mul_le_mul_of_nonneg_right near (two_zpow_pos (unit n d)).le
  rw [← abs_of_pos (two_zpow_pos (unit n d)), ← abs_mul, sub_mul, abs_of_pos (two_zpow_pos _),
    div_mul_cancel₀ _ (two_zpow_pos _).ne'] at scaled
  rw [roundedMantissa]
  linarith

theorem roundedMantissa_le_twoTo (nonzero : 0 < n) : roundedMantissa n d ≤ twoTo precision := by
  refine roundedMantissa_le positive ?_
  have upper := (floorLog2_spec nonzero positive).2
  have exponent : floorLog2 n d + 1 ≤ (precision : Int) + unit n d := by
    have lower : floorLog2 n d - (precision - 1) ≤ unit n d := le_max_left _ _
    omega
  calc (n : ℚ) / d ≤ 2 ^ (floorLog2 n d + 1) := upper.le
    _ ≤ 2 ^ ((precision : Int) + unit n d) := two_zpow_le exponent
    _ = (twoTo precision : Nat) * 2 ^ unit n d := by
      rw [zpow_add₀ (by norm_num), zpow_natCast]
      norm_num [twoTo]

theorem unit_le {g : Int} (nonzero : 0 < n) (bounded : (n : ℚ) / d < 2 ^ g) :
    unit n d ≤ max (g - precision) leastExponent := by
  have lower := (floorLog2_spec nonzero positive).1
  have exponent : floorLog2 n d < g :=
    (zpow_lt_zpow_iff_right₀ (by norm_num)).mp (lower.trans_lt bounded)
  exact max_le_max_right _ (by omega)

end

theorem isFinite_carry {m : Nat} {e : Int} (short : m ≤ twoTo precision) (low : e ≤ 970) :
    (carry m e).isFinite = true := by
  have whole {g : Int} (below : g ≤ 0) : pow2 g = 1 := by
    rw [pow2, Int.toNat_of_nonpos below]
    rfl
  rw [carry]
  split
  · have least : twoTo (precision - 1) < twoTo 53 := by decide
    rw [isFinite, whole (by dsimp; omega), Nat.mul_one]
    exact decide_eq_true least
  · rename_i other
    rw [isFinite, whole (by dsimp; omega), Nat.mul_one]
    exact decide_eq_true (lt_of_le_of_ne short other)

theorem exists_ofRatio {n d : Nat} (positive : 0 < d) (bounded : (n : ℚ) / d < 2 ^ (1023 : Int)) :
    ∃ x, ofRatio n d = some x := by
  by_cases zero : n = 0
  · exact ⟨_, if_pos zero⟩
  have nonzero : 0 < n := Nat.pos_of_ne_zero zero
  have low : unit n d ≤ 970 := unit_le positive nonzero bounded
  rw [ofRatio_eq nonzero, if_pos (isFinite_carry (roundedMantissa_le_twoTo positive nonzero) low)]
  exact ⟨_, rfl⟩

inductive Rounds : ℚ → Binary64 → Prop where
  | intro {n d : Nat} {x : Binary64} (positive : 0 < d) (rounded : ofRatio n d = some x) :
      Rounds (n / d) x

variable {q : ℚ} {x : Binary64}

theorem Rounds.cases (rounds : Rounds q x) :
    q = 0 ∧ x.value = 0 ∨ ∃ n d : Nat, 0 < n ∧ 0 < d ∧ q = n / d ∧
      x.value = roundedMantissa n d * 2 ^ unit n d := by
  obtain ⟨positive, rounded⟩ := rounds
  rename_i n d
  by_cases zero : n = 0
  · rw [ofRatio, if_pos zero] at rounded
    cases rounded
    refine .inl ⟨by simp [zero], by simp [value, Binary64.zero]⟩
  · have nonzero : 0 < n := Nat.pos_of_ne_zero zero
    exact .inr ⟨n, d, nonzero, positive, rfl, value_ofRatio nonzero rounded⟩

theorem value_nonneg (x : Binary64) : 0 ≤ x.value :=
  mul_nonneg (Nat.cast_nonneg _) (two_zpow_pos _).le

theorem eq_mul_unit {e : Int} (fine : e ≤ 0) (k : Nat) :
    (k : ℚ) = (k * 2 ^ (-e).toNat : Nat) * 2 ^ e := by
  push_cast
  rw [← zpow_natCast, Int.toNat_of_nonneg (by omega), mul_assoc, ← zpow_add₀ (by norm_num),
    neg_add_cancel, zpow_zero, mul_one]

theorem Rounds.le_value {k : Nat} (rounds : Rounds q x) (short : k ≤ 2 ^ 53) (bound : k ≤ q) :
    k ≤ x.value := by
  rcases rounds.cases with ⟨rfl, zero⟩ | ⟨n, d, nonzero, positive, rfl, rounded⟩
  · rwa [zero]
  rw [rounded]
  by_cases fine : unit n d ≤ 0
  · rw [eq_mul_unit fine k] at bound ⊢
    have reached := le_roundedMantissa positive bound
    exact mul_le_mul_of_nonneg_right (by exact_mod_cast reached) (two_zpow_pos _).le
  · -- The quotient is beyond all such numbers, and so is the power of two below it.
    have exponent : unit n d = floorLog2 n d - 52 := by
      have coarse : unit n d = max (floorLog2 n d - (precision - 1)) leastExponent := rfl
      simp only [precision, leastExponent] at coarse
      omega
    have power : ((2 ^ 52 : Nat) : ℚ) * 2 ^ unit n d = 2 ^ floorLog2 n d := by
      rw [exponent, zpow_sub₀ (by norm_num)]
      norm_num
      ring
    have reached : 2 ^ 52 ≤ roundedMantissa n d := by
      refine le_roundedMantissa positive ?_
      rw [power]
      exact (floorLog2_spec nonzero positive).1
    calc (k : ℚ) ≤ (2 ^ 53 : Nat) := by exact_mod_cast short
      _ = 2 ^ (53 : Int) := by norm_num
      _ ≤ 2 ^ floorLog2 n d := two_zpow_le (by omega)
      _ = ((2 ^ 52 : Nat) : ℚ) * 2 ^ unit n d := power.symm
      _ ≤ roundedMantissa n d * 2 ^ unit n d :=
        mul_le_mul_of_nonneg_right (by exact_mod_cast reached) (two_zpow_pos _).le

theorem Rounds.value_le {k : Nat} (rounds : Rounds q x) (short : k < 2 ^ 53) (bound : q ≤ k) :
    x.value ≤ k := by
  rcases rounds.cases with ⟨rfl, zero⟩ | ⟨n, d, nonzero, positive, rfl, rounded⟩
  · rwa [zero]
  have below : (n : ℚ) / d < 2 ^ (53 : Int) := bound.trans_lt (by exact_mod_cast short)
  have fine : unit n d ≤ 0 := unit_le positive nonzero below
  rw [rounded]
  rw [eq_mul_unit fine k] at bound ⊢
  have reached := roundedMantissa_le positive bound
  exact mul_le_mul_of_nonneg_right (by exact_mod_cast reached) (two_zpow_pos _).le

theorem Rounds.value_eq {k : Nat} (rounds : Rounds k x) (short : k < 2 ^ 53) : x.value = k :=
  le_antisymm (rounds.value_le short le_rfl) (rounds.le_value short.le le_rfl)

theorem Rounds.abs_value_sub_le {g : Int} (rounds : Rounds q x) (bounded : q < 2 ^ g)
    (normal : leastExponent + precision ≤ g) : |x.value - q| ≤ 2 ^ (g - precision - 1) := by
  rcases rounds.cases with ⟨rfl, zero⟩ | ⟨n, d, nonzero, positive, rfl, rounded⟩
  · rw [zero, sub_zero, abs_zero]
    exact (two_zpow_pos _).le
  have least : unit n d ≤ g - precision := by
    have bound := unit_le positive nonzero bounded
    omega
  rw [rounded, zpow_sub_one₀ (by norm_num)]
  calc _ ≤ 2 ^ unit n d / 2 := abs_roundedMantissa_sub_le positive
    _ ≤ 2 ^ (g - precision) / 2 := by
      have units : (2 : ℚ) ^ unit n d ≤ 2 ^ (g - precision) := two_zpow_le least
      linarith

theorem Rounds.value_lt {g : Int} (rounds : Rounds q x) (bounded : q < 2 ^ g)
    (normal : leastExponent + precision ≤ g) : x.value < 2 ^ (g + 1) := by
  have near := (abs_le.mp (rounds.abs_value_sub_le bounded normal)).2
  have smaller : (2 : ℚ) ^ (g - precision - 1) ≤ 2 ^ g := two_zpow_le (by omega)
  rw [zpow_add_one₀ (by norm_num)]
  linarith

theorem exists_rounds {n d : Nat} (positive : 0 < d) (bounded : (n : ℚ) / d < 2 ^ (1023 : Int)) :
    ∃ x, ofRatio n d = some x ∧ Rounds (n / d) x := by
  obtain ⟨x, rounded⟩ := exists_ofRatio positive bounded
  exact ⟨x, rounded, .intro positive rounded⟩

theorem exists_ofNat {n : Nat} (bounded : (n : ℚ) < 2 ^ (1023 : Int)) :
    ∃ x, ofNat n = some x ∧ Rounds n x := by
  have whole : (n : ℚ) / (1 : Nat) = n := by rw [Nat.cast_one, div_one]
  have rounds := exists_rounds Nat.one_pos (whole ▸ bounded)
  rwa [whole] at rounds

theorem modNat_spec (x : Binary64) {n : Nat} (nonzero : 0 < n) :
    ∃ k : Nat, ((x.modNat n).1 : ℚ) / (x.modNat n).2 = x.value - n * k ∧
      n * k ≤ x.value ∧ x.value < n * (k + 1) := by
  have positive : (0 : ℚ) < x.ratio.2 := by exact_mod_cast x.ratio_pos
  have short := Nat.mod_lt x.ratio.1 (Nat.mul_pos nonzero x.ratio_pos)
  have division := Nat.div_add_mod' x.ratio.1 (n * x.ratio.2)
  rw [modNat, value_eq_ratio]
  generalize x.ratio.1 % (n * x.ratio.2) = r at short division ⊢
  refine ⟨x.ratio.1 / (n * x.ratio.2), ?_⟩
  generalize x.ratio.1 / (n * x.ratio.2) = k at division ⊢
  have rest : (x.ratio.1 : ℚ) / x.ratio.2 = n * k + r / x.ratio.2 := by
    rw [← division]
    push_cast
    field_simp
  have nonneg : (0 : ℚ) ≤ r / x.ratio.2 := by positivity
  have below : (r : ℚ) / x.ratio.2 < n := by
    rw [div_lt_iff₀ positive]
    exact_mod_cast short
  refine ⟨?_, ?_, ?_⟩ <;> linarith

theorem exists_add {x y : Binary64} (bounded : x.value + y.value < 2 ^ (1023 : Int)) :
    ∃ z, x.add y = some z ∧ Rounds (x.value + y.value) z := by
  have positive : 0 < x.ratio.2 * y.ratio.2 := Nat.mul_pos x.ratio_pos y.ratio_pos
  have sum : ((x.ratio.1 * y.ratio.2 + y.ratio.1 * x.ratio.2 : Nat) : ℚ) /
      (x.ratio.2 * y.ratio.2 : Nat) = x.value + y.value := by
    have one : (x.ratio.2 : ℚ) ≠ 0 := by exact_mod_cast x.ratio_pos.ne'
    have other : (y.ratio.2 : ℚ) ≠ 0 := by exact_mod_cast y.ratio_pos.ne'
    rw [value_eq_ratio, value_eq_ratio]
    push_cast
    field_simp
  have rounds := exists_rounds positive (sum ▸ bounded)
  rwa [sum] at rounds

theorem exists_div {x y : Binary64} (positive : 0 < y.value)
    (bounded : x.value / y.value < 2 ^ (1023 : Int)) :
    ∃ z, x.div y = some z ∧ Rounds (x.value / y.value) z := by
  have divisor : 0 < y.ratio.1 := by
    rw [value_eq_ratio] at positive
    refine Nat.pos_of_ne_zero fun zero => ?_
    rw [zero, Nat.cast_zero, zero_div] at positive
    exact absurd positive (lt_irrefl 0)
  have quotient : ((x.ratio.1 * y.ratio.2 : Nat) : ℚ) / (x.ratio.2 * y.ratio.1 : Nat) =
      x.value / y.value := by
    rw [value_eq_ratio, value_eq_ratio, div_div_div_eq]
    push_cast
    rfl
  have rounds := exists_rounds (Nat.mul_pos x.ratio_pos divisor) (quotient ▸ bounded)
  rwa [quotient] at rounds

end Binary64

end XmlDelta.Number
