import Mathlib.Data.Nat.Factorization.Basic
import Mathlib.Tactic.Ring
import PostsMedia.Library.Doubles

namespace Doubles

variable {x : ℚ} {n s t : ℕ}

theorem abs_nearestEven_sub_le (x : ℚ) : |nearestEven x - x| ≤ 1 / 2 := by
  have split := Int.floor_add_fract x
  have nonneg := Int.fract_nonneg x
  have less := Int.fract_lt_one x
  rw [abs_le]
  unfold nearestEven
  split_ifs <;> push_cast <;> constructor <;> linarith

/-- Rounding moves a number by half a unit at most. -/
theorem abs_toDouble_sub_le (x : ℚ) : |toDouble x - x| ≤ quantum x / 2 := by
  have unit := quantum_pos x
  have scaled : toDouble x - x = (nearestEven (x / quantum x) - x / quantum x) * quantum x := by
    rw [toDouble]
    field_simp
  rw [scaled, abs_mul, abs_of_pos unit]
  have near := mul_le_mul_of_nonneg_right (abs_nearestEven_sub_le (x / quantum x)) unit.le
  linarith

theorem quantum_le (positive : 0 < x) : quantum x ≤ x / 2 ^ 52 := by
  have low := (scaled_bounds positive).1
  rw [le_div_iff₀ (quantum_pos x)] at low
  rw [le_div_iff₀ (by norm_num)]
  linarith

/-- The rounding error in proportion to the number. -/
theorem abs_toDouble_sub_le_div (positive : 0 < x) : |toDouble x - x| ≤ x / 2 ^ 53 := by
  have near := abs_toDouble_sub_le x
  have unit := quantum_le positive
  norm_num at unit ⊢
  linarith

/-- The unit of a number between two powers of two. -/
theorem quantum_eq {e : ℤ} (low : 2 ^ e ≤ x) (high : x < 2 ^ (e + 1)) :
    quantum x = 2 ^ (e - 52) := by
  have positive : 0 < x := lt_of_lt_of_le (by positivity) low
  have atLeast : e ≤ Int.log 2 x :=
    (Int.zpow_le_iff_le_log (b := 2) (by norm_num) positive).mp (by exact_mod_cast low)
  have below : Int.log 2 x < e + 1 :=
    (Int.lt_zpow_iff_log_lt (b := 2) (by norm_num) positive).mp (by exact_mod_cast high)
  rw [quantum, abs_of_pos positive, show Int.log 2 x = e by omega]

/-- Below a power of two the unit is at most that of the numbers under it. -/
theorem quantum_le_zpow {e : ℤ} (positive : 0 < x) (high : x < 2 ^ (e + 1)) :
    quantum x ≤ 2 ^ (e - 52) := by
  have below : Int.log 2 x < e + 1 :=
    (Int.lt_zpow_iff_log_lt (b := 2) (by norm_num) positive).mp (by exact_mod_cast high)
  rw [quantum, abs_of_pos positive]
  exact zpow_le_zpow_right₀ (by norm_num) (by omega)

/-- From a power of two on, the unit is a natural multiple of that of the numbers above it. -/
theorem toDouble_multiple {e : ℕ} (large : 2 ^ (52 + e) ≤ x) :
    ∃ k : ℤ, toDouble x = k * 2 ^ e := by
  have positive : 0 < x := lt_of_lt_of_le (by positivity) large
  have atLeast : ((52 + e : ℕ) : ℤ) ≤ Int.log 2 x := by
    apply (Int.zpow_le_iff_le_log (b := 2) (by norm_num) positive).mp
    rw [zpow_natCast]
    exact_mod_cast large
  obtain ⟨j, excess⟩ := Int.eq_ofNat_of_zero_le (Int.sub_nonneg_of_le atLeast)
  have unit : quantum x = 2 ^ j * 2 ^ e := by
    rw [quantum, abs_of_pos positive, ← pow_add, ← zpow_natCast]
    congr 1
    push_cast at excess ⊢
    omega
  refine ⟨nearestEven (x / quantum x) * 2 ^ j, ?_⟩
  rw [toDouble, unit]
  push_cast
  ring

theorem nearestEven_div_down (positive : 0 < s) (down : 2 * (n % s) < s) :
    nearestEven (n / s) = (n / s : ℕ) := by
  have pos : (0 : ℚ) < s := by exact_mod_cast positive
  have small : (2 * (n % s : ℕ) : ℚ) < s := by exact_mod_cast down
  have fract : Int.fract ((n : ℚ) / s) < 1 / 2 := by
    rw [Int.fract_div_natCast_eq_div_natCast_mod, div_lt_iff₀ pos]
    linarith
  rw [nearestEven, if_pos fract]
  exact Rat.floor_natCast_div_natCast n s

theorem nearestEven_div_up (positive : 0 < s) (up : s < 2 * (n % s)) :
    nearestEven (n / s) = (n / s : ℕ) + 1 := by
  have pos : (0 : ℚ) < s := by exact_mod_cast positive
  have large : (s : ℚ) < 2 * (n % s : ℕ) := by exact_mod_cast up
  have fract : 1 / 2 < Int.fract ((n : ℚ) / s) := by
    rw [Int.fract_div_natCast_eq_div_natCast_mod, lt_div_iff₀ pos]
    linarith
  rw [nearestEven, if_neg (by linarith), if_pos fract, Rat.floor_natCast_div_natCast,
    Int.natCast_ediv]

/-- A quotient that is rounded down loses its remainder. -/
theorem mul_toDouble_div_down {k : ℕ} (positive : 0 < s)
    (unit : quantum (t / s) = (2 ^ k)⁻¹) (down : 2 * (t * 2 ^ k % s) < s) :
    s * toDouble (t / s) = t - (t * 2 ^ k % s : ℕ) / 2 ^ k := by
  have pos : (s : ℚ) ≠ 0 := by exact_mod_cast positive.ne'
  have scaled : (t / s : ℚ) / (2 ^ k)⁻¹ = (t * 2 ^ k : ℕ) / s := by
    push_cast
    field_simp
  have division : (s * (t * 2 ^ k / s : ℕ) + (t * 2 ^ k % s : ℕ) : ℚ) = t * 2 ^ k := by
    exact_mod_cast Nat.div_add_mod (t * 2 ^ k) s
  rw [toDouble, unit, scaled, nearestEven_div_down positive down, Int.cast_natCast]
  field_simp
  linarith

/-- A quotient that is rounded up is not smaller. -/
theorem le_mul_toDouble_div_up {k : ℕ} (positive : 0 < s)
    (unit : quantum (t / s) = (2 ^ k)⁻¹) (up : s < 2 * (t * 2 ^ k % s)) :
    t ≤ s * toDouble (t / s) := by
  have pos : (0 : ℚ) < s := by exact_mod_cast positive
  have scaled : (t / s : ℚ) / (2 ^ k)⁻¹ = (t * 2 ^ k : ℕ) / s := by
    push_cast
    field_simp
  have division : (s * (t * 2 ^ k / s : ℕ) + (t * 2 ^ k % s : ℕ) : ℚ) = t * 2 ^ k := by
    exact_mod_cast Nat.div_add_mod (t * 2 ^ k) s
  have rest : ((t * 2 ^ k % s : ℕ) : ℚ) ≤ s := by exact_mod_cast (Nat.mod_lt _ positive).le
  have back : s * toDouble (t / s) * 2 ^ k = s * (t * 2 ^ k / s : ℕ) + s := by
    rw [toDouble, unit, scaled, nearestEven_div_up positive up]
    simp only [Int.cast_add, Int.cast_natCast, Int.cast_one]
    field_simp
  have power : (0 : ℚ) < 2 ^ k := by positivity
  apply le_of_mul_le_mul_right _ power
  linarith

/-- No quotient by a number of at most so many bits lies halfway between two. -/
theorem mod_ne_half {k : ℕ} (positive : 0 < s) (bits : Nat.log 2 s ≤ k) :
    2 * (t * 2 ^ k % s) ≠ s := by
  intro half
  obtain ⟨a, c, odd, factors⟩ := Nat.exists_eq_two_pow_mul_odd positive.ne'
  have doubled : s ∣ 2 ^ (k + 1) * t := by
    refine ⟨2 * (t * 2 ^ k / s) + 1, ?_⟩
    have division := Nat.div_add_mod (t * 2 ^ k) s
    calc 2 ^ (k + 1) * t = 2 * (t * 2 ^ k) := by ring
      _ = 2 * (s * (t * 2 ^ k / s)) + 2 * (t * 2 ^ k % s) := by rw [← Nat.mul_add, division]
      _ = s * (2 * (t * 2 ^ k / s) + 1) := by
          rw [half]
          ring
  have coprime : Nat.Coprime c (2 ^ (k + 1)) := odd.coprime_two_right.pow_right _
  have factor : c ∣ t :=
    coprime.dvd_of_dvd_mul_left ((Dvd.intro_left _ factors.symm).trans doubled)
  have shorter : a ≤ k := by
    refine le_trans ?_ bits
    apply Nat.le_log_of_pow_le (by norm_num)
    rw [factors]
    exact Nat.le_mul_of_pos_right _ odd.pos
  have divides : s ∣ t * 2 ^ k := by
    rw [factors, Nat.mul_comm]
    exact Nat.mul_dvd_mul factor (Nat.pow_dvd_pow 2 shorter)
  rw [Nat.mod_eq_zero_of_dvd divides] at half
  omega

/-- A little below an even multiple of the unit, a number still rounds up to it. -/
theorem le_toDouble_sub_iff {p : ℕ} {d : ℚ} (finer : 0 < p)
    (unit : quantum (t - d) = (2 ^ p)⁻¹) :
    t ≤ toDouble (t - d) ↔ d * 2 ^ (p + 1) ≤ 1 := by
  have power : (0 : ℚ) < 2 ^ p := by positivity
  have scaled : (t - d) / (2 ^ p)⁻¹ = ((t * 2 ^ p : ℤ) : ℚ) - d * 2 ^ p := by
    push_cast
    field_simp
  have reaches : t ≤ toDouble (t - d) ↔
      (t * 2 ^ p : ℤ) ≤ nearestEven (((t * 2 ^ p : ℤ) : ℚ) - d * 2 ^ p) := by
    rw [toDouble, unit, scaled, ← div_eq_mul_inv, le_div_iff₀ power]
    exact_mod_cast Iff.rfl
  have double : d * 2 ^ (p + 1) = 2 * (d * 2 ^ p) := by ring
  rw [reaches, double]
  constructor
  · intro least
    have near := (abs_le.mp (abs_nearestEven_sub_le (((t * 2 ^ p : ℤ) : ℚ) - d * 2 ^ p))).2
    have integers : ((t * 2 ^ p : ℤ) : ℚ) ≤
        nearestEven (((t * 2 ^ p : ℤ) : ℚ) - d * 2 ^ p) := by exact_mod_cast least
    linarith
  · intro small
    have half : nearestEven (((t * 2 ^ p : ℤ) : ℚ) - 1 / 2) = (t * 2 ^ p : ℤ) := by
      have even : (t * 2 ^ p : ℤ) % 2 = 0 := by
        obtain ⟨q, rfl⟩ := Nat.exists_eq_succ_of_ne_zero finer.ne'
        rw [pow_succ, ← mul_assoc]
        exact Int.mul_emod_left _ _
      have floor : ⌊((t * 2 ^ p : ℤ) : ℚ) - 1 / 2⌋ = t * 2 ^ p - 1 := by
        rw [Int.floor_eq_iff]
        push_cast
        constructor <;> linarith
      have fract : Int.fract (((t * 2 ^ p : ℤ) : ℚ) - 1 / 2) = 1 / 2 := by
        rw [Int.fract, floor]
        push_cast
        ring
      rw [nearestEven, fract, floor, if_neg (by norm_num), if_neg (by norm_num),
        if_neg (by omega)]
      ring
    have closer := nearestEven_mono (show ((t * 2 ^ p : ℤ) : ℚ) - 1 / 2 ≤
      ((t * 2 ^ p : ℤ) : ℚ) - d * 2 ^ p by linarith)
    rwa [half] at closer

/-- Dividing by a number and multiplying with it again does not lose a part of the dividend: the
remainder of the quotient's bits rounds up, or is below half of the divisor's highest bit. -/
def Recovers (t s : ℕ) : Prop :=
  s * 2 ^ Nat.log 2 t ≤ t * 2 ^ Nat.log 2 s →
    s ≤ 2 * (t * 2 ^ (52 - Nat.log 2 t + Nat.log 2 s) % s) ∨
      2 * (t * 2 ^ (52 - Nat.log 2 t + Nat.log 2 s) % s) ≤ 2 ^ Nat.log 2 s

instance (t s : ℕ) : Decidable (Recovers t s) :=
  inferInstanceAs (Decidable (_ → _))

/-- The unit of a quotient, by the highest bits of its two numbers. -/
theorem quantum_div (dividend : 0 < t) (positive : 0 < s) (bits : Nat.log 2 t ≤ 52) :
    quantum (t / s) = (2 ^ (52 - Nat.log 2 t + Nat.log 2 s +
      if s * 2 ^ Nat.log 2 t ≤ t * 2 ^ Nat.log 2 s then 0 else 1))⁻¹ := by
  have pos : (0 : ℚ) < s := by exact_mod_cast positive
  have tLow : (2 ^ Nat.log 2 t : ℚ) ≤ t := by
    exact_mod_cast Nat.pow_log_le_self 2 dividend.ne'
  have tHigh : (t : ℚ) < 2 * 2 ^ Nat.log 2 t := by
    have high := Nat.lt_pow_succ_log_self (b := 2) (by norm_num) t
    rw [pow_succ'] at high
    exact_mod_cast high
  have sLow : (2 ^ Nat.log 2 s : ℚ) ≤ s := by
    exact_mod_cast Nat.pow_log_le_self 2 positive.ne'
  have sHigh : (s : ℚ) < 2 * 2 ^ Nat.log 2 s := by
    have high := Nat.lt_pow_succ_log_self (b := 2) (by norm_num) s
    rw [pow_succ'] at high
    exact_mod_cast high
  have units (e : ℤ) : (2 : ℚ) ^ ((Nat.log 2 t : ℤ) - Nat.log 2 s + e) =
      2 ^ Nat.log 2 t / 2 ^ Nat.log 2 s * 2 ^ e := by
    rw [zpow_add₀ (by norm_num), zpow_sub₀ (by norm_num), zpow_natCast, zpow_natCast]
  have sPower : (0 : ℚ) < 2 ^ Nat.log 2 s := by positivity
  have tPower : (0 : ℚ) < 2 ^ Nat.log 2 t := by positivity
  rw [← zpow_natCast, ← zpow_neg]
  by_cases order : s * 2 ^ Nat.log 2 t ≤ t * 2 ^ Nat.log 2 s
  · have order' : (s * 2 ^ Nat.log 2 t : ℚ) ≤ t * 2 ^ Nat.log 2 s := by exact_mod_cast order
    rw [if_pos order]
    have exponent : (-((52 - Nat.log 2 t + Nat.log 2 s + 0 : ℕ) : ℤ)) =
        (Nat.log 2 t : ℤ) - Nat.log 2 s + 0 - 52 := by omega
    rw [exponent]
    apply quantum_eq
    · rw [units, zpow_zero, mul_one, div_le_div_iff₀ sPower pos]
      linarith
    · rw [add_assoc, units, zero_add, zpow_one, div_mul_eq_mul_div, div_lt_div_iff₀ pos sPower]
      nlinarith
  · have order' : (t * 2 ^ Nat.log 2 s : ℚ) < s * 2 ^ Nat.log 2 t := by
      exact_mod_cast not_le.mp order
    rw [if_neg order]
    have exponent : (-((52 - Nat.log 2 t + Nat.log 2 s + 1 : ℕ) : ℤ)) =
        (Nat.log 2 t : ℤ) - Nat.log 2 s + -1 - 52 := by omega
    rw [exponent]
    apply quantum_eq
    · rw [units, zpow_neg, zpow_one, div_mul_eq_mul_div, div_le_div_iff₀ sPower pos]
      nlinarith
    · rw [add_assoc, units, neg_add_cancel, zpow_zero, mul_one, div_lt_div_iff₀ pos sPower]
      linarith

/-- The unit of an integer stays its unit a little below it. -/
theorem quantum_sub {d : ℚ} (inexact : 2 ^ Nat.log 2 t < t) (bits : Nat.log 2 t ≤ 52)
    (nonneg : 0 ≤ d) (small : d ≤ 1) :
    quantum (t - d) = (2 ^ (52 - Nat.log 2 t))⁻¹ := by
  have low : (2 ^ Nat.log 2 t + 1 : ℚ) ≤ t := by exact_mod_cast inexact
  have high : (t : ℚ) < 2 ^ (Nat.log 2 t + 1) := by
    exact_mod_cast Nat.lt_pow_succ_log_self (b := 2) (by norm_num) t
  rw [← zpow_natCast, ← zpow_neg, show (-((52 - Nat.log 2 t : ℕ) : ℤ)) =
    (Nat.log 2 t : ℤ) - 52 by omega]
  apply quantum_eq
  · rw [zpow_natCast]
    linarith
  · rw [zpow_add_one₀ (by norm_num), zpow_natCast, ← pow_succ]
    linarith

/-- The product of a divisor with the rounded quotient rounds to less than the dividend exactly
when the two do not recover it. -/
theorem le_toDouble_mul_iff (inexact : 2 ^ Nat.log 2 t < t) (bits : Nat.log 2 t < 52)
    (positive : 0 < s) : t ≤ toDouble (s * toDouble (t / s)) ↔ Recovers t s := by
  have dividend : 0 < t := (Nat.zero_le _).trans_lt inexact
  have unit := quantum_div dividend positive bits.le
  have top := Nat.lt_pow_succ_log_self (b := 2) (by norm_num) s
  obtain ⟨k, precision⟩ : ∃ k, k = 52 - Nat.log 2 t + Nat.log 2 s +
    if s * 2 ^ Nat.log 2 t ≤ t * 2 ^ Nat.log 2 s then 0 else 1 := ⟨_, rfl⟩
  rw [← precision] at unit
  rcases lt_or_gt_of_ne (mod_ne_half (t := t) (k := k) positive (by omega)) with down | up
  · have fits : t * 2 ^ k % s ≤ 2 ^ k := by
      have power : 2 ^ (Nat.log 2 s + 1) ≤ 2 ^ k := Nat.pow_le_pow_right (by norm_num) (by omega)
      have rest := Nat.mod_lt (t * 2 ^ k) positive
      omega
    have power : (0 : ℚ) < 2 ^ k := by positivity
    have small : ((t * 2 ^ k % s : ℕ) / 2 ^ k : ℚ) ≤ 1 := by
      rw [div_le_one power]
      exact_mod_cast fits
    rw [mul_toDouble_div_down positive unit down, le_toDouble_sub_iff (by omega)
      (quantum_sub inexact bits.le (by positivity) small), div_mul_eq_mul_div, div_le_one power]
    have scaled : ((t * 2 ^ k % s : ℕ) * 2 ^ (52 - Nat.log 2 t + 1) : ℚ) ≤ 2 ^ k ↔
        2 * (t * 2 ^ k % s) * 2 ^ (52 - Nat.log 2 t) ≤ 2 ^ k := by
      rw [pow_succ']
      norm_cast
      ring_nf
    rw [scaled, Recovers]
    by_cases order : s * 2 ^ Nat.log 2 t ≤ t * 2 ^ Nat.log 2 s
    · rw [if_pos order, Nat.add_zero] at precision
      have split : 2 ^ k = 2 ^ Nat.log 2 s * 2 ^ (52 - Nat.log 2 t) := by
        rw [precision, Nat.pow_add, Nat.mul_comm]
      rw [← precision, split, Nat.mul_le_mul_right_iff (by positivity), ← split]
      omega
    · rw [if_neg order] at precision
      have split : 2 ^ k = 2 ^ (Nat.log 2 s + 1) * 2 ^ (52 - Nat.log 2 t) := by
        rw [precision, Nat.add_assoc, Nat.pow_add, Nat.mul_comm]
      have below : 2 * (t * 2 ^ k % s) * 2 ^ (52 - Nat.log 2 t) ≤ 2 ^ k := by
        rw [split]
        apply Nat.mul_le_mul_right
        rw [← split]
        omega
      simp [order, below]
  · have least := toDouble_mono (by exact_mod_cast dividend)
      (le_mul_toDouble_div_up positive unit up)
    have exact : toDouble t = t := by
      apply toDouble_natCast dividend
      have power : 2 ^ (Nat.log 2 t + 1) ≤ 2 ^ 53 :=
        Nat.pow_le_pow_right (by norm_num) (by omega)
      have high := Nat.lt_pow_succ_log_self (b := 2) (by norm_num) t
      omega
    rw [exact] at least
    refine iff_of_true least ?_
    intro order
    rw [if_pos order, Nat.add_zero] at precision
    rw [← precision]
    omega

/-- A power of two is recovered when the remainder of its quotient's bits rounds up, or is below
half of the divisor's highest bit. The numbers just below it have a finer unit. -/
def Restores (t s : ℕ) : Prop :=
  if 2 ^ Nat.log 2 t < t then Recovers t s
  else s ≤ 2 * (2 ^ (53 + Nat.log 2 s) % s) ∨ 2 * (2 ^ (53 + Nat.log 2 s) % s) ≤ 2 ^ Nat.log 2 s

instance (t s : ℕ) : Decidable (Restores t s) := by
  unfold Restores; infer_instance

/-- The unit just below one. -/
theorem quantum_one_sub {d : ℚ} (positive : 0 < d) (small : d ≤ 1 / 2) :
    quantum ((1 : ℕ) - d) = (2 ^ 53)⁻¹ := by
  have unit : quantum ((1 : ℕ) - d) = 2 ^ ((-1 : ℤ) - 52) := by
    apply quantum_eq
    · norm_num
      linarith
    · norm_num
      linarith
  rw [unit]
  norm_num

/-- One is recovered exactly when its remainder allows it. -/
theorem one_le_toDouble_mul_iff (positive : 0 < s) :
    1 ≤ toDouble (s * toDouble ((1 : ℕ) / s)) ↔
      s ≤ 2 * (2 ^ (53 + Nat.log 2 s) % s) ∨
        2 * (2 ^ (53 + Nat.log 2 s) % s) ≤ 2 ^ Nat.log 2 s := by
  have least := Nat.pow_log_le_self 2 positive.ne'
  have top := Nat.lt_pow_succ_log_self (b := 2) (by norm_num) s
  rcases least.eq_or_lt with power | inexact
  · have pow : (s : ℚ) = 2 ^ (Nat.log 2 s : ℤ) := by
      rw [zpow_natCast]
      exact_mod_cast power.symm
    have quotient : ((1 : ℕ) / s : ℚ) = 2 ^ (-(Nat.log 2 s : ℤ)) := by
      rw [zpow_neg, ← pow]
      simp
    have divides : 2 ^ (53 + Nat.log 2 s) % s = 0 := by
      apply Nat.mod_eq_zero_of_dvd
      nth_rewrite 1 [← power]
      exact Nat.pow_dvd_pow 2 (Nat.le_add_left _ _)
    have whole : (s : ℚ) * 2 ^ (-(Nat.log 2 s : ℤ)) = 2 ^ (0 : ℤ) := by
      rw [pow, ← zpow_add₀ (by norm_num), add_neg_cancel]
    rw [quotient, toDouble_zpow, whole, toDouble_zpow, divides]
    simp
  · have unit := quantum_div (t := 1) one_pos positive (by norm_num)
    rw [if_neg (by simpa using inexact), Nat.log_one_right,
      show 52 - 0 + Nat.log 2 s + 1 = 53 + Nat.log 2 s by omega] at unit
    rw [← Nat.one_mul (2 ^ (53 + Nat.log 2 s))]
    rcases lt_or_gt_of_ne (mod_ne_half (t := 1) (k := 53 + Nat.log 2 s) positive (by omega)) with
      down | up
    · have shift : 2 ^ (53 + Nat.log 2 s) = 2 ^ 53 * 2 ^ Nat.log 2 s := Nat.pow_add ..
      have rest := Nat.mod_lt (1 * 2 ^ (53 + Nat.log 2 s)) positive
      have half : 2 * (1 * 2 ^ (53 + Nat.log 2 s) % s) ≤ 2 ^ (53 + Nat.log 2 s) := by
        rw [Nat.pow_succ] at top
        omega
      have power : (0 : ℚ) < 2 ^ (53 + Nat.log 2 s) := by positivity
      rw [mul_toDouble_div_down positive unit down]
      generalize 1 * 2 ^ (53 + Nat.log 2 s) % s = remainder at down half ⊢
      rcases remainder.eq_zero_or_pos with rfl | some
      · simp [show toDouble 1 = 1 by exact_mod_cast toDouble_zpow 0]
      · have gap : (0 : ℚ) < remainder / 2 ^ (53 + Nat.log 2 s) := by positivity
        have small : (remainder / 2 ^ (53 + Nat.log 2 s) : ℚ) ≤ 1 / 2 := by
          rw [div_le_div_iff₀ power (by norm_num)]
          have half' : (2 * remainder : ℚ) ≤ 2 ^ (53 + Nat.log 2 s) := by exact_mod_cast half
          linarith
        have reaches := le_toDouble_sub_iff (t := 1) (p := 53) (by norm_num)
          (quantum_one_sub gap small)
        rw [Nat.cast_one] at reaches ⊢
        rw [reaches, div_mul_eq_mul_div, div_le_one power]
        have scaled : (remainder * 2 ^ (53 + 1) : ℚ) ≤ 2 ^ (53 + Nat.log 2 s) ↔
            remainder * 2 ^ 54 ≤ 2 ^ 53 * 2 ^ Nat.log 2 s := by
          rw [← shift]
          norm_cast
        rw [scaled]
        omega
    · have least := toDouble_mono (by norm_num) (le_mul_toDouble_div_up positive unit up)
      rw [Nat.cast_one, show toDouble 1 = 1 by exact_mod_cast toDouble_zpow 0] at least
      rw [Nat.cast_one]
      exact iff_of_true least (.inl up.le)

/-- Rounding a quotient and its product never loses a dividend that is restored. -/
theorem le_toDouble_mul_iff_restores (dividend : 0 < t) (bits : Nat.log 2 t < 52)
    (positive : 0 < s) : t ≤ toDouble (s * toDouble (t / s)) ↔ Restores t s := by
  unfold Restores
  split_ifs with inexact
  · exact le_toDouble_mul_iff inexact bits positive
  · have power : t = 2 ^ Nat.log 2 t :=
      le_antisymm (not_lt.mp inexact) (Nat.pow_log_le_self 2 dividend.ne')
    have pos : (0 : ℚ) < s := by exact_mod_cast positive
    have scale : (0 : ℚ) < 2 ^ (Nat.log 2 t : ℤ) := by positivity
    have cast : (t : ℚ) = 2 ^ (Nat.log 2 t : ℤ) := by
      rw [zpow_natCast]
      exact_mod_cast power
    have quotient : (t / s : ℚ) = (1 : ℕ) / s * 2 ^ (Nat.log 2 t : ℤ) := by
      rw [← cast]
      push_cast
      ring
    have unit : (0 : ℚ) < (1 : ℕ) / s := by positivity
    rw [quotient, toDouble_mul_zpow unit, ← mul_assoc,
      toDouble_mul_zpow (mul_pos pos (toDouble_pos unit)), ← one_le_toDouble_mul_iff positive,
      cast]
    exact le_mul_iff_one_le_left scale

end Doubles
