import Mathlib.Data.Int.Log
import Mathlib.Data.Rat.Floor
import Mathlib.Tactic.FieldSimp
import Mathlib.Algebra.Order.Field.Power
import Mathlib.Tactic.Linarith
import Mathlib.Tactic.Positivity
import Mathlib.Tactic.NormNum

namespace Doubles

variable {x y : ℚ}

/-- The nearest integer, and of two the even one. -/
def nearestEven (x : ℚ) : ℤ :=
  if Int.fract x < 1 / 2 then ⌊x⌋
  else if 1 / 2 < Int.fract x then ⌊x⌋ + 1
  else if ⌊x⌋ % 2 = 0 then ⌊x⌋ else ⌊x⌋ + 1

/-- The distance of the numbers with 53 significant bits around a number. -/
def quantum (x : ℚ) : ℚ := 2 ^ (Int.log 2 |x| - 52)

/-- The nearest number with 53 significant bits, and of two the one whose last bit is zero. -/
def toDouble (x : ℚ) : ℚ := nearestEven (x / quantum x) * quantum x

theorem floor_le_nearestEven (x : ℚ) : ⌊x⌋ ≤ nearestEven x := by
  unfold nearestEven
  split_ifs <;> omega

theorem nearestEven_le_floor (x : ℚ) : nearestEven x ≤ ⌊x⌋ + 1 := by
  unfold nearestEven
  split_ifs <;> omega

@[simp] theorem nearestEven_intCast (n : ℤ) : nearestEven n = n := by
  simp [nearestEven]

theorem nearestEven_mono (le : x ≤ y) : nearestEven x ≤ nearestEven y := by
  have floors : ⌊x⌋ ≤ ⌊y⌋ := Int.floor_le_floor le
  by_cases same : ⌊x⌋ = ⌊y⌋
  · have fracts : Int.fract x ≤ Int.fract y := by
      have lower := Int.floor_add_fract x
      have upper := Int.floor_add_fract y
      rw [same] at lower
      linarith
    unfold nearestEven
    rw [same]
    split_ifs <;> first | omega | (exfalso; linarith)
  · have below := nearestEven_le_floor x
    have above := floor_le_nearestEven y
    omega

theorem quantum_pos (x : ℚ) : 0 < quantum x := by
  unfold quantum
  positivity

/-- The scaled number has 53 bits before the point. -/
theorem scaled_bounds (positive : 0 < x) :
    (2 ^ 52 : ℚ) ≤ x / quantum x ∧ x / quantum x < 2 ^ 53 := by
  have low : (2 : ℚ) ^ Int.log 2 x ≤ x := by
    exact_mod_cast Int.zpow_log_le_self (b := 2) (by norm_num) positive
  have high : x < (2 : ℚ) ^ (Int.log 2 x + 1) := by
    exact_mod_cast Int.lt_zpow_succ_log_self (b := 2) (by norm_num) x
  have unit : quantum x = 2 ^ Int.log 2 x / 2 ^ 52 := by
    rw [quantum, abs_of_pos positive, zpow_sub₀ (by norm_num)]
    norm_num
  have power : (0 : ℚ) < 2 ^ Int.log 2 x := by positivity
  rw [zpow_add_one₀ (by norm_num)] at high
  rw [unit, div_div_eq_mul_div]
  constructor
  · rw [le_div_iff₀ power]
    linarith
  · rw [div_lt_iff₀ power]
    norm_num
    linarith

/-- A number between two of the scaled integers rounds to one between them. -/
theorem toDouble_bounds (positive : 0 < x) :
    2 ^ 52 * quantum x ≤ toDouble x ∧ toDouble x ≤ 2 ^ 53 * quantum x := by
  obtain ⟨low, high⟩ := scaled_bounds positive
  have lower := nearestEven_mono low
  have upper := nearestEven_mono high.le
  rw [show (2 ^ 52 : ℚ) = ((2 ^ 52 : ℤ) : ℚ) by norm_num, nearestEven_intCast] at lower
  rw [show (2 ^ 53 : ℚ) = ((2 ^ 53 : ℤ) : ℚ) by norm_num, nearestEven_intCast] at upper
  have unit := (quantum_pos x).le
  constructor
  · exact mul_le_mul_of_nonneg_right (by exact_mod_cast lower) unit
  · exact mul_le_mul_of_nonneg_right (by exact_mod_cast upper) unit

/-- Rounding at most halves a number. -/
theorem half_lt_toDouble (positive : 0 < x) : x / 2 < toDouble x := by
  have low := (toDouble_bounds positive).1
  have high := (scaled_bounds positive).2
  rw [div_lt_iff₀ (quantum_pos x)] at high
  norm_num at low high
  linarith

theorem toDouble_pos (positive : 0 < x) : 0 < toDouble x :=
  (half_pos positive).trans (half_lt_toDouble positive)

theorem toDouble_zero : toDouble 0 = 0 := by
  have zero : nearestEven 0 = 0 := by simpa using nearestEven_intCast 0
  simp [toDouble, zero]

theorem toDouble_nonneg (least : 0 ≤ x) : 0 ≤ toDouble x := by
  rcases least.eq_or_lt with rfl | positive
  · exact toDouble_zero.ge
  · exact (toDouble_pos positive).le

/-- Rounding keeps the order of positive numbers. -/
theorem toDouble_mono (positive : 0 < x) (le : x ≤ y) : toDouble x ≤ toDouble y := by
  have larger : 0 < y := positive.trans_le le
  have logs : Int.log 2 |x| ≤ Int.log 2 |y| := by
    rw [abs_of_pos positive, abs_of_pos larger]
    exact Int.log_mono_right positive le
  by_cases same : Int.log 2 |x| = Int.log 2 |y|
  · have units : quantum x = quantum y := by rw [quantum, quantum, same]
    have scaled : x / quantum x ≤ y / quantum y := by
      rw [units]
      exact div_le_div_of_nonneg_right le (quantum_pos y).le
    have integers : (nearestEven (x / quantum x) : ℚ) ≤ nearestEven (y / quantum y) := by
      exact_mod_cast nearestEven_mono scaled
    calc toDouble x ≤ nearestEven (y / quantum y) * quantum x :=
          mul_le_mul_of_nonneg_right integers (quantum_pos x).le
      _ = toDouble y := by rw [units, toDouble]
  · have units : 2 * quantum x ≤ quantum y := by
      rw [quantum, quantum, ← zpow_one_add₀ (by norm_num)]
      exact zpow_le_zpow_right₀ (by norm_num) (by omega)
    have upper := (toDouble_bounds positive).2
    have lower := (toDouble_bounds larger).1
    norm_num at upper lower
    linarith

/-- A power of two is its own rounding. -/
theorem toDouble_zpow (k : ℤ) : toDouble (2 ^ k) = 2 ^ k := by
  have unit : quantum (2 ^ k) = 2 ^ k / 2 ^ 52 := by
    have log : Int.log 2 ((2 : ℚ) ^ k) = k := by
      exact_mod_cast Int.log_zpow (R := ℚ) (b := 2) (by norm_num) k
    rw [quantum, abs_of_pos (by positivity), log, zpow_sub₀ (by norm_num)]
    norm_num
  have scaled : (2 : ℚ) ^ k / quantum (2 ^ k) = ((2 ^ 52 : ℤ) : ℚ) := by
    rw [unit, div_div_cancel₀ (by positivity)]
    norm_num
  rw [toDouble, scaled, nearestEven_intCast, unit]
  push_cast
  field_simp
  norm_num

/-- The integers up to `2 ^ 53` are exact. -/
theorem toDouble_natCast {n : ℕ} (positive : 0 < n) (small : n ≤ 2 ^ 53) : toDouble n = n := by
  rcases small.eq_or_lt with rfl | less
  · exact_mod_cast toDouble_zpow 53
  · have log : Int.log 2 |(n : ℚ)| ≤ 52 := by
      rw [abs_of_nonneg (by positivity), Int.log_natCast]
      have bits : Nat.log 2 n < 53 := Nat.log_lt_of_lt_pow positive.ne' less
      omega
    obtain ⟨k, shift⟩ := Int.eq_ofNat_of_zero_le (Int.sub_nonneg_of_le log)
    have unit : quantum n = ((2 : ℚ) ^ k)⁻¹ := by
      rw [quantum, show Int.log 2 |(n : ℚ)| - 52 = -(k : ℤ) by omega, zpow_neg, zpow_natCast]
    have scaled : (n : ℚ) / quantum n = ((n * 2 ^ k : ℤ) : ℚ) := by
      rw [unit, div_inv_eq_mul]
      push_cast
      ring
    rw [toDouble, scaled, nearestEven_intCast, unit]
    push_cast
    field_simp

/-- A rounded integer that stays below an exact one was below it. -/
theorem le_of_toDouble_le {m n : ℕ} (small : n < 2 ^ 53) (le : toDouble m ≤ n) : m ≤ n := by
  by_contra greater
  have next : n + 1 ≤ m := Nat.lt_of_not_le greater
  have rounded : toDouble ((n + 1 : ℕ) : ℚ) ≤ toDouble (m : ℚ) :=
    toDouble_mono (by positivity) (by exact_mod_cast next)
  rw [toDouble_natCast (Nat.succ_pos n) small] at rounded
  push_cast at rounded
  linarith

theorem log_mul_zpow (positive : 0 < x) (k : ℤ) :
    Int.log 2 (x * 2 ^ k) = Int.log 2 x + k := by
  have low : (2 : ℚ) ^ Int.log 2 x ≤ x := by
    exact_mod_cast Int.zpow_log_le_self (b := 2) (by norm_num) positive
  have high : x < (2 : ℚ) ^ (Int.log 2 x + 1) := by
    exact_mod_cast Int.lt_zpow_succ_log_self (b := 2) (by norm_num) x
  have power : (0 : ℚ) < 2 ^ k := by positivity
  have scaled : 0 < x * 2 ^ k := mul_pos positive power
  apply le_antisymm
  · rw [← Int.lt_add_one_iff, ← Int.lt_zpow_iff_log_lt (by norm_num) scaled]
    push_cast
    rw [show Int.log 2 x + k + 1 = Int.log 2 x + 1 + k by ring, zpow_add₀ (by norm_num)]
    exact mul_lt_mul_of_pos_right high power
  · rw [← Int.zpow_le_iff_le_log (by norm_num) scaled]
    push_cast
    rw [zpow_add₀ (by norm_num)]
    exact mul_le_mul_of_nonneg_right low power.le

/-- Rounding commutes with the powers of two. -/
theorem toDouble_mul_zpow (positive : 0 < x) (k : ℤ) :
    toDouble (x * 2 ^ k) = toDouble x * 2 ^ k := by
  have power : (0 : ℚ) < 2 ^ k := by positivity
  have unit : quantum (x * 2 ^ k) = quantum x * 2 ^ k := by
    rw [quantum, quantum, abs_of_pos (mul_pos positive power), abs_of_pos positive,
      log_mul_zpow positive, ← zpow_add₀ (by norm_num)]
    congr 1
    ring
  rw [toDouble, toDouble, unit, mul_div_mul_right _ _ power.ne', mul_assoc]

/-- A rounded number is its own rounding. -/
theorem toDouble_toDouble (positive : 0 < x) : toDouble (toDouble x) = toDouble x := by
  obtain ⟨low, high⟩ := scaled_bounds positive
  have lower := nearestEven_mono low
  have upper := nearestEven_mono high.le
  rw [show (2 ^ 52 : ℚ) = ((2 ^ 52 : ℤ) : ℚ) by norm_num, nearestEven_intCast] at lower
  rw [show (2 ^ 53 : ℚ) = ((2 ^ 53 : ℤ) : ℚ) by norm_num, nearestEven_intCast] at upper
  obtain ⟨n, exact⟩ := Int.eq_ofNat_of_zero_le (show 0 ≤ nearestEven (x / quantum x) by omega)
  have shape : toDouble x = (n : ℚ) * 2 ^ (Int.log 2 |x| - 52) := by
    rw [toDouble, exact]
    rfl
  have some : 0 < n := by omega
  rw [shape, toDouble_mul_zpow (by exact_mod_cast some), toDouble_natCast some (by omega)]

end Doubles
