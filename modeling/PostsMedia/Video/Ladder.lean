import Mathlib.Algebra.Order.Floor.Semifield
import PostsMedia.Library.Quotients
import PostsMedia.Video.Frames

namespace PostsMedia.Video

open Doubles

open Processing (RenditionLabel)

variable {source : VideoSize} {short long target : ℕ} {value : ℚ}

/-- The side of a size along the shorter side of the source. -/
def shortSide (source size : VideoSize) : ℕ :=
  if source.width < source.height then size.width else size.height

/-- The side of a size along the longer side of the source. -/
def longSide (source size : VideoSize) : ℕ :=
  if source.width < source.height then size.height else size.width

/-- A rendition has even sides of at least two pixels that the source contains, the orientation of
the source, and for a ladder label its number and the proportional length within three pixels. -/
structure Proportioned (source : VideoSize) (rendition : VideoRendition) : Prop where
  even : Even rendition.width ∧ Even rendition.height
  least : 2 ≤ rendition.width ∧ 2 ≤ rendition.height
  fits : rendition.width ≤ source.width ∧ rendition.height ≤ source.height
  oriented : if source.width < source.height then rendition.width ≤ rendition.height
    else rendition.height ≤ rendition.width
  scaled : ∀ target, targetShort rendition.label = some target →
    shortSide source rendition.toVideoSize = target ∧
      |(longSide source rendition.toVideoSize : ℚ) -
        longSide source source * target / shortSide source source| < 3

/-- A source gets the ladder heights up to its short edge, or its own size below the ladder, and
every rendition is well proportioned. -/
def Ladder (source : VideoSize) : Prop :=
  (planVideoRenditions source.width source.height).map (fun rendition =>
    targetShort rendition.label) = targets (min source.width source.height) ∧
  ∀ rendition ∈ planVideoRenditions source.width source.height, Proportioned source rendition

/-- The rounding error of a number. -/
def roundoff (value : ℚ) : ℚ := toDouble value - value

/-- The errors of the quotient and of the product stay below three pixels together, and the long
edge is not rounded up where the source keeps its size. -/
def Steady (short long target : ℕ) : Prop :=
  |long * roundoff (target / short) + roundoff (long * toDouble (target / short))| < 3 ∧
    (target = short → roundoff long ≤ 0)

instance (short long target : ℕ) : Decidable (Steady short long target) :=
  inferInstanceAs (Decidable (_ ∧ _))

theorem even_mono {value' : ℚ} (le : value ≤ value') : even value ≤ even value' := by
  have floors : ⌊value / 2⌋₊ ≤ ⌊value' / 2⌋₊ := Nat.floor_le_floor (by linarith)
  unfold even
  omega

theorem two_le_even (value : ℚ) : 2 ≤ even value := Nat.le_max_left _ _

theorem even_le {n : ℕ} (two : 2 ≤ n) (le : value ≤ n) : even value ≤ n := by
  have half : ⌊value / 2⌋₊ ≤ n / 2 := by
    have floors : ⌊value / 2⌋₊ ≤ ⌊(n : ℚ) / 2⌋₊ := Nat.floor_le_floor (by linarith)
    have floor : ⌊(n : ℚ) / 2⌋₊ = n / 2 := Nat.floor_div_eq_div n 2
    omega
  unfold even
  omega

/-- Less than two pixels are lost. -/
theorem even_bounds (value : ℚ) (large : 2 ≤ value) :
    value - 2 < even value ∧ even value ≤ value := by
  have low := Int.lt_floor_add_one (value / 2)
  have high := Int.floor_le (value / 2)
  rw [even_eq large]
  constructor <;> linarith

/-- One pixel at most is lost of a whole number. -/
theorem sub_one_le_even {n : ℤ} (two : 2 ≤ n) : (n - 1 : ℚ) ≤ even n := by
  have floor : ⌊(n : ℚ) / 2⌋ = n / 2 := by exact_mod_cast Rat.floor_intCast_div_natCast n 2
  have whole : n - 1 ≤ 2 * (n / 2) := by omega
  rw [even_eq (by exact_mod_cast two), floor]
  exact_mod_cast whole

/-- Nothing is lost of an even number. -/
theorem even_double {n : ℤ} (one : 1 ≤ n) : (even (2 * n) : ℚ) = 2 * n := by
  have two : (2 : ℚ) ≤ 2 * n := by
    have : (1 : ℚ) ≤ n := by exact_mod_cast one
    linarith
  rw [even_eq two, mul_div_cancel_left₀ _ (by norm_num), Int.floor_intCast]

/-- Doubles from `2 ^ 53` on are even. -/
theorem even_toDouble (positive : 0 < value) (large : 2 ^ 53 ≤ toDouble value) :
    (even (toDouble value) : ℚ) = toDouble value := by
  have double : ∃ n : ℤ, toDouble value = 2 * n := by
    by_cases above : 2 ^ 53 ≤ value
    · obtain ⟨n, multiple⟩ := toDouble_multiple (e := 1) above
      exact ⟨n, by linarith⟩
    · have below : toDouble value ≤ 2 ^ 53 := by
        have mono := toDouble_mono positive (not_le.mp above).le
        rwa [show (2 ^ 53 : ℚ) = 2 ^ (53 : ℤ) by norm_num, toDouble_zpow] at mono
      refine ⟨2 ^ 52, ?_⟩
      norm_num at below large ⊢
      linarith
  obtain ⟨n, double⟩ := double
  rw [double] at large ⊢
  apply even_double
  have one : (1 : ℚ) ≤ n := by linarith
  exact_mod_cast one

/-- The rounded quotient makes the product miss the exact length by a `2 ^ 53`th at most. -/
theorem abs_product_sub_le (long : ℕ) (edge : 0 < short) (goal : 0 < target) :
    |long * toDouble (target / short) - long * target / short| ≤
      long * target / short / 2 ^ 53 := by
  have edge' : (0 : ℚ) < short := by exact_mod_cast edge
  have goal' : (0 : ℚ) < target := by exact_mod_cast goal
  have near := abs_toDouble_sub_le_div (div_pos goal' edge')
  have scaled : (long * toDouble (target / short) - long * target / short : ℚ) =
      long * (toDouble (target / short) - target / short) := by ring
  rw [scaled, abs_mul, abs_of_nonneg (by positivity)]
  calc (long * |toDouble (target / short) - target / short| : ℚ) ≤
        long * (target / short / 2 ^ 53) := mul_le_mul_of_nonneg_left near (by positivity)
    _ = long * target / short / 2 ^ 53 := by ring

/-- A length below `2 ^ 53` pixels that is computed with a small relative error is planned within
three pixels. -/
theorem abs_even_sub_lt {exact product : ℚ} (large : 4 ≤ exact) (small : exact < 2 ^ 53)
    (near : |product - exact| ≤ exact / 2 ^ 53) :
    |even (toDouble product) - exact| < 3 ∧ toDouble product ≤ 2 ^ 53 := by
  obtain ⟨below, above⟩ := abs_le.mp near
  have positive : 0 < product := by
    norm_num at below ⊢
    linarith
  obtain ⟨down, up⟩ := abs_le.mp (abs_toDouble_sub_le product)
  have power (k : ℤ) (high : product < 2 ^ (k + 1)) := quantum_le_zpow positive high
  rw [abs_lt]
  by_cases fine : product < 2 ^ 52
  · have unit := power 51 (by norm_num at fine ⊢; exact fine)
    norm_num at unit fine small below above
    obtain ⟨lower, upper⟩ := even_bounds (toDouble product) (by linarith)
    norm_num
    refine ⟨⟨by linarith, by linarith⟩, by linarith⟩
  by_cases whole : product < 2 ^ 53
  · have unit := power 52 (by norm_num at whole ⊢; exact whole)
    obtain ⟨n, integer⟩ := toDouble_multiple (e := 0) (not_lt.mp fine)
    rw [pow_zero, mul_one] at integer
    norm_num at unit fine whole small below above
    have two : (2 : ℚ) ≤ n := by linarith
    have lower := sub_one_le_even (n := n) (by exact_mod_cast two)
    obtain ⟨_, upper⟩ := even_bounds _ two
    rw [integer] at down up ⊢
    have bounded : n ≤ 2 ^ 53 := by
      have less : (n : ℚ) < 2 ^ 53 + 1 := by
        norm_num
        linarith
      have less' : n < 2 ^ 53 + 1 := by exact_mod_cast less
      omega
    refine ⟨⟨by linarith, by linarith⟩, by exact_mod_cast bounded⟩
  · have low := toDouble_mono (by norm_num) (not_lt.mp whole)
    have high : toDouble product ≤ toDouble (2 ^ 53 + 1) := by
      apply toDouble_mono positive
      norm_num at small above ⊢
      linarith
    rw [show (2 ^ 53 : ℚ) = 2 ^ (53 : ℤ) by norm_num, toDouble_zpow] at low
    rw [show toDouble (2 ^ 53 + 1) = 2 ^ 53 by decide +kernel] at high
    have same : toDouble product = 2 ^ 53 := by
      norm_num at low high ⊢
      linarith
    rw [even_toDouble positive (by rw [same]), same]
    norm_num at small above whole ⊢
    constructor <;> linarith

/-- The two roundings of the short edge stay within a fifth of a pixel. -/
theorem abs_short_sub_lt (edge : 0 < short) (goal : 0 < target) (most : target ≤ 1080) :
    |toDouble (short * toDouble (target / short)) - target| < 1 / 5 := by
  have edge' : (0 : ℚ) < short := by exact_mod_cast edge
  have goal' : (1 : ℚ) ≤ target := by exact_mod_cast goal
  have most' : (target : ℚ) ≤ 1080 := by exact_mod_cast most
  have product := abs_product_sub_le short edge goal
  rw [mul_div_cancel_left₀ _ edge'.ne'] at product
  obtain ⟨below, above⟩ := abs_le.mp product
  have positive : (0 : ℚ) < short * toDouble (target / short) := by
    norm_num at below ⊢
    linarith
  obtain ⟨down, up⟩ := abs_le.mp (abs_toDouble_sub_le_div positive)
  norm_num at below above down up
  rw [abs_lt]
  constructor <;> linarith

/-- The short edge has the height of its label or two pixels less. -/
theorem plannedSide_short_cases (member : target ∈ [360, 720, 1080]) (edge : 0 < short) :
    plannedSide short short (some target) = target ∨
      plannedSide short short (some target) = target - 2 := by
  have facts : ∀ target ∈ [360, 720, 1080], 360 ≤ target ∧ target ≤ 1080 ∧ target % 2 = 0 := by
    decide
  obtain ⟨least, most, even⟩ := facts target member
  have near := abs_lt.mp (abs_short_sub_lt edge (by omega) most)
  have least' : (360 : ℚ) ≤ target := by exact_mod_cast least
  rw [plannedSide]
  obtain ⟨lower, upper⟩ := even_bounds (toDouble (short * toDouble (target / short))) (by linarith)
  have high : Video.even (toDouble (short * toDouble (target / short))) < target + 2 := by
    have less : (Video.even (toDouble (short * toDouble (target / short))) : ℚ) <
        (target + 2 : ℕ) := by
      push_cast
      linarith
    exact_mod_cast less
  have low : target < Video.even (toDouble (short * toDouble (target / short))) + 3 := by
    have less : (target : ℚ) <
        (Video.even (toDouble (short * toDouble (target / short))) + 3 : ℕ) := by
      push_cast
      linarith
    exact_mod_cast less
  have parity := Nat.even_iff.mp (even_even (toDouble (short * toDouble (target / short))))
  omega

/-- The short edge has the height of its label exactly when the quotient recovers it. -/
theorem plannedSide_short_iff (member : target ∈ [360, 720, 1080]) (edge : 0 < short) :
    plannedSide short short (some target) = target ↔ Recovers target short := by
  have facts : ∀ target ∈ [360, 720, 1080], 360 ≤ target ∧ target ≤ 1080 ∧
      2 ^ Nat.log 2 target < target ∧ Nat.log 2 target < 52 := by decide +kernel
  obtain ⟨least, most, inexact, bits⟩ := facts target member
  rw [← le_toDouble_mul_iff inexact bits edge]
  have least' : (360 : ℚ) ≤ target := by exact_mod_cast least
  have near := abs_lt.mp (abs_short_sub_lt edge (by omega) most)
  have cases := plannedSide_short_cases member edge
  rw [plannedSide] at cases ⊢
  generalize toDouble (short * toDouble (target / short)) = value at near cases ⊢
  obtain ⟨lower, upper⟩ := even_bounds value (by linarith)
  constructor
  · intro same
    rw [same] at upper
    exact upper
  · intro reaches
    refine cases.resolve_right fun lost => ?_
    rw [lost, Nat.cast_sub (by omega)] at lower
    push_cast at lower
    linarith

theorem rounded_product_pos (edge : 0 < short) (goal : 0 < target) (side : 0 < long) :
    (0 : ℚ) < long * toDouble (target / short) := by
  have edge' : (0 : ℚ) < short := by exact_mod_cast edge
  have goal' : (0 : ℚ) < target := by exact_mod_cast goal
  have side' : (0 : ℚ) < long := by exact_mod_cast side
  have ratio : (0 : ℚ) < target / short := div_pos goal' edge'
  have half := half_lt_toDouble ratio
  exact mul_pos side' (by linarith)

theorem plannedSide_mono (edge : 0 < short) (goal : ∀ target ∈ choice, 0 < target)
    (le : short ≤ long) : plannedSide short short choice ≤ plannedSide short long choice := by
  have le' : (short : ℚ) ≤ long := by exact_mod_cast le
  cases choice with
  | none => exact even_mono le'
  | some target =>
      have positive := rounded_product_pos edge (goal target rfl) edge
      have edge' : (0 : ℚ) < short := by exact_mod_cast edge
      have scale : (0 : ℚ) < toDouble (target / short) := by
        exact (mul_pos_iff_of_pos_left edge').mp positive
      apply even_mono
      apply toDouble_mono positive
      exact mul_le_mul_of_nonneg_right le' scale.le

/-- A long edge of fewer than `2 ^ 53` pixels is planned within three pixels and contained in the
source. -/
theorem plannedSide_long (edge : 0 < short) (goal : 4 ≤ target) (downscales : target ≤ short)
    (longer : short ≤ long) (small : long * target < 2 ^ 53 * short) :
    |(plannedSide short long (some target) : ℚ) - long * target / short| < 3 ∧
      plannedSide short long (some target) ≤ long := by
  have edge' : (0 : ℚ) < short := by exact_mod_cast edge
  have goal' : (4 : ℚ) ≤ target := by exact_mod_cast goal
  have longer' : (short : ℚ) ≤ long := by exact_mod_cast longer
  have downscales' : (target : ℚ) ≤ short := by exact_mod_cast downscales
  have small' : (long * target : ℚ) < 2 ^ 53 * short := by exact_mod_cast small
  have product := abs_product_sub_le long edge (by omega : 0 < target)
  have large : (4 : ℚ) ≤ long * target / short := by
    rw [le_div_iff₀ edge']
    nlinarith
  have below : (long * target / short : ℚ) < 2 ^ 53 := by rwa [div_lt_iff₀ edge']
  obtain ⟨near, bounded⟩ := abs_even_sub_lt large below product
  refine ⟨near, even_le (by omega) ?_⟩
  rcases le_or_gt long (2 ^ 53) with exact | huge
  · have scale : toDouble (target / short) ≤ 1 := by
      have ratio : (0 : ℚ) < target / short := by positivity
      have mono := toDouble_mono ratio ((div_le_one edge').mpr downscales')
      rwa [show (1 : ℚ) = 2 ^ (0 : ℤ) by norm_num, toDouble_zpow] at mono
    have mono := toDouble_mono (rounded_product_pos edge (by omega : 0 < target)
      (by omega : 0 < long))
      (mul_le_of_le_one_right (by linarith) scale)
    rwa [toDouble_natCast (by omega) exact] at mono
  · have huge' : (2 ^ 53 : ℚ) < long := by exact_mod_cast huge
    linarith

/-- A length of at least `2 ^ 53` pixels is planned within three pixels when its double is. -/
theorem abs_even_sub_lt_iff {exact product : ℚ} (large : 2 ^ 53 ≤ exact)
    (near : |product - exact| ≤ exact / 2 ^ 53) :
    |even (toDouble product) - exact| < 3 ↔ |toDouble product - exact| < 3 := by
  obtain ⟨below, _⟩ := abs_le.mp near
  norm_num at large below
  have positive : 0 < product := by linarith
  rcases le_or_gt (2 ^ 53) (toDouble product) with high | low
  · rw [even_toDouble positive high]
  have two : 2 ≤ toDouble product := by
    have half := half_lt_toDouble positive
    linarith
  obtain ⟨_, under⟩ := even_bounds _ two
  norm_num at low
  rw [abs_lt, abs_lt]
  constructor
  · rintro ⟨lower, _⟩
    constructor <;> linarith
  · rintro ⟨lower, _⟩
    have fine : product < 2 ^ 53 := by
      by_contra reaches
      have mono := toDouble_mono (by norm_num) (not_lt.mp reaches)
      rw [show (2 ^ 53 : ℚ) = 2 ^ (53 : ℤ) by norm_num, toDouble_zpow] at mono
      norm_num at mono
      linarith
    have unit := quantum_le_zpow (e := 52) positive (by exact_mod_cast fine)
    have down := (abs_le.mp (abs_toDouble_sub_le product)).1
    obtain ⟨n, integer⟩ := toDouble_multiple (x := product) (e := 0) (by norm_num; linarith)
    rw [pow_zero, mul_one] at integer
    rw [integer] at two down low lower under ⊢
    have least := sub_one_le_even (n := n) (by exact_mod_cast two)
    norm_num at unit
    constructor <;> linarith

/-- The rounding errors of a length of fewer than `2 ^ 54` pixels stay below three pixels. -/
theorem steady_of_lt (edge : 0 < short) (goal : 0 < target) (downscales : target < short)
    (side : 0 < long) (small : long * target < 2 ^ 54 * short) : Steady short long target := by
  have edge' : (0 : ℚ) < short := by exact_mod_cast edge
  have below : (long * target / short : ℚ) < 2 ^ 54 := by
    rw [div_lt_iff₀ edge']
    exact_mod_cast small
  have positive := rounded_product_pos edge goal side
  obtain ⟨low, high⟩ := abs_le.mp (abs_product_sub_le long edge goal)
  obtain ⟨down, up⟩ := abs_le.mp (abs_toDouble_sub_le (long * toDouble (target / short)))
  have errors :
      (long * roundoff (target / short) + roundoff (long * toDouble (target / short)) : ℚ) =
      toDouble (long * toDouble (target / short)) - long * target / short := by
    unfold roundoff
    ring
  refine ⟨?_, fun same => absurd same downscales.ne⟩
  rw [errors, abs_lt]
  by_cases fine : (long * toDouble (target / short) : ℚ) < 2 ^ 54
  · have unit := quantum_le_zpow (e := 53) positive (by exact_mod_cast fine)
    norm_num at unit below low high
    constructor <;> linarith
  · -- a product from there on rounds back to the power of two
    have least := toDouble_mono (by norm_num) (not_lt.mp fine)
    have most : toDouble (long * toDouble (target / short)) ≤ toDouble (2 ^ 54 + 2) := by
      apply toDouble_mono positive
      norm_num at below high ⊢
      linarith
    rw [show (2 ^ 54 : ℚ) = 2 ^ (54 : ℤ) by norm_num, toDouble_zpow] at least
    rw [show toDouble (2 ^ 54 + 2) = 2 ^ 54 by decide +kernel] at most
    norm_num at least most fine below low high
    constructor <;> linarith

/-- From `2 ^ 53` pixels on, the two rounding errors decide. -/
theorem plannedSide_long_iff (edge : 0 < short) (goal : 4 ≤ target) (most : target ≤ 1080)
    (downscales : target ≤ short) (large : 2 ^ 53 * short ≤ long * target) :
    (|(plannedSide short long (some target) : ℚ) - long * target / short| < 3 ∧
      plannedSide short long (some target) ≤ long) ↔ Steady short long target := by
  have edge' : (0 : ℚ) < short := by exact_mod_cast edge
  have goal' : (4 : ℚ) ≤ target := by exact_mod_cast goal
  have most' : (target : ℚ) ≤ 1080 := by exact_mod_cast most
  have large' : (2 ^ 53 : ℚ) ≤ long * target / short := by
    rw [le_div_iff₀ edge']
    exact_mod_cast large
  have wide : 2 ^ 53 ≤ long := by
    by_contra narrow
    have product := Nat.mul_lt_mul_of_lt_of_le (not_le.mp narrow) downscales edge
    omega
  have wide' : (2 ^ 53 : ℚ) ≤ long := by exact_mod_cast wide
  have product := abs_product_sub_le long edge (by omega : 0 < target)
  have errors : long * roundoff (target / short) + roundoff (long * toDouble (target / short)) =
      toDouble (long * toDouble (target / short)) - long * target / short := by
    unfold roundoff
    ring
  rw [Steady, errors, plannedSide, abs_even_sub_lt_iff large' product]
  apply and_congr_right
  intro near
  have upper := (abs_lt.mp near).2
  rcases downscales.eq_or_lt with same | smaller
  · have unscaled : (long * toDouble (target / short) : ℚ) = long := by
      rw [same, div_self edge'.ne', show toDouble 1 = 1 by decide +kernel, mul_one]
    have reaches : 2 ^ 53 ≤ toDouble (long : ℚ) := by
      have mono := toDouble_mono (by norm_num) wide'
      rwa [show (2 ^ 53 : ℚ) = 2 ^ (53 : ℤ) by norm_num, toDouble_zpow] at mono
    have planned := even_toDouble (by exact_mod_cast (by omega : 0 < long)) reaches
    rw [unscaled]
    simp only [same, true_imp_iff, roundoff, sub_nonpos]
    rw [← planned, Nat.cast_le, planned]
  · have far : (3 : ℚ) ≤ long - long * target / short := by
      have smaller' : (target + 1 : ℚ) ≤ short := by exact_mod_cast smaller
      have wider : (3 * short : ℚ) ≤ long := by
        rw [le_div_iff₀ edge'] at large'
        norm_num at large'
        nlinarith
      have gap : (long - long * target / short : ℚ) = long * (short - target) / short := by
        field_simp
      rw [gap, le_div_iff₀ edge']
      nlinarith
    have contained : even (toDouble (long * toDouble (target / short))) ≤ long :=
      even_le (by omega) (by linarith)
    simp [contained, smaller.ne]

theorem mem_targets : some target ∈ targets short ↔ target ∈ [360, 720, 1080] ∧ target ≤ short := by
  unfold targets
  split_ifs with small
  · simp only [List.mem_singleton, reduceCtorEq, false_iff]
    rintro ⟨member, least⟩
    simp only [List.mem_cons, List.not_mem_nil, or_false] at member
    omega
  · simp [List.mem_filter]

theorem two_le_plannedSide (side : ℕ) (choice : Option ℕ) :
    2 ≤ plannedSide short side choice := by
  cases choice <;> exact two_le_even _

/-- A rendition is proportioned when its sides are, along the short and the long edge. -/
theorem proportioned_iff (source : VideoSize) (label : RenditionLabel)
    (narrow : short = min source.width source.height)
    (wide : long = max source.width source.height)
    (ordered : plannedSide short short (targetShort label) ≤
      plannedSide short long (targetShort label)) :
    Proportioned source (plannedRendition source label) ↔
      plannedSide short short (targetShort label) ≤ short ∧
      plannedSide short long (targetShort label) ≤ long ∧
      ∀ target, targetShort label = some target →
        plannedSide short short (targetShort label) = target ∧
          |(plannedSide short long (targetShort label) : ℚ) - long * target / short| < 3 := by
  by_cases portrait : source.width < source.height
  · have shorter : short = source.width := by omega
    have longer : long = source.height := by omega
    subst shorter longer
    constructor
    · rintro ⟨_, _, ⟨width, height⟩, _, scaled⟩
      simp only [plannedRendition, shortSide, longSide, ← narrow, portrait, if_true] at *
      exact ⟨width, height, scaled⟩
    · rintro ⟨width, height, scaled⟩
      constructor <;> simp only [plannedRendition, shortSide, longSide, ← narrow, portrait, if_true]
      · exact ⟨even_plannedSide _ _ _, even_plannedSide _ _ _⟩
      · exact ⟨two_le_plannedSide _ _, two_le_plannedSide _ _⟩
      · exact ⟨width, height⟩
      · exact ordered
      · exact scaled
  · have shorter : short = source.height := by omega
    have longer : long = source.width := by omega
    subst shorter longer
    constructor
    · rintro ⟨_, _, ⟨width, height⟩, _, scaled⟩
      simp only [plannedRendition, shortSide, longSide, ← narrow, portrait, if_false] at *
      exact ⟨height, width, scaled⟩
    · rintro ⟨height, width, scaled⟩
      constructor <;>
        simp only [plannedRendition, shortSide, longSide, ← narrow, portrait, if_false]
      · exact ⟨even_plannedSide _ _ _, even_plannedSide _ _ _⟩
      · exact ⟨two_le_plannedSide _ _, two_le_plannedSide _ _⟩
      · exact ⟨width, height⟩
      · exact ordered
      · exact scaled

/-- A target up to the short edge is planned well exactly when the short edge recovers it and the
long edge is steady. -/
theorem planned_target_iff (member : target ∈ [360, 720, 1080]) (edge : 0 < short)
    (downscales : target ≤ short) (longer : short ≤ long) :
    (plannedSide short short (some target) ≤ short ∧
      plannedSide short long (some target) ≤ long ∧
      plannedSide short short (some target) = target ∧
        |(plannedSide short long (some target) : ℚ) - long * target / short| < 3) ↔
      Recovers target short ∧ (2 ^ 53 * short ≤ long * target → Steady short long target) := by
  have bounds : 4 ≤ target ∧ target ≤ 1080 := by
    simp only [List.mem_cons, List.not_mem_nil, or_false] at member
    omega
  rw [← plannedSide_short_iff member edge]
  rcases lt_or_ge (long * target) (2 ^ 53 * short) with small | large
  · obtain ⟨near, contained⟩ := plannedSide_long edge bounds.1 downscales longer small
    constructor
    · rintro ⟨_, _, same, _⟩
      exact ⟨same, fun large => absurd large (not_le.mpr small)⟩
    · rintro ⟨same, _⟩
      exact ⟨same.trans_le downscales, contained, same, near⟩
  · have decided := plannedSide_long_iff edge bounds.1 bounds.2 downscales large
    constructor
    · rintro ⟨_, contained, same, near⟩
      exact ⟨same, fun _ => decided.mp ⟨near, contained⟩⟩
    · rintro ⟨same, steady⟩
      obtain ⟨near, contained⟩ := decided.mpr (steady large)
      exact ⟨same.trans_le downscales, contained, same, near⟩

/-- The ladder arithmetic is right exactly when every target up to the short edge is recovered and,
for a proportional length of at least `2 ^ 53` pixels, steady. -/
theorem ladder_iff (source : VideoSize) (wide : 2 ≤ source.width) (tall : 2 ≤ source.height) :
    Ladder source ↔ ∀ target ∈ [360, 720, 1080], target ≤ min source.width source.height →
      Recovers target (min source.width source.height) ∧
        (2 ^ 53 * min source.width source.height ≤ max source.width source.height * target →
          Steady (min source.width source.height) (max source.width source.height) target) := by
  have labels : (planVideoRenditions source.width source.height).map (fun rendition =>
      targetShort rendition.label) = targets (min source.width source.height) := by
    rw [planVideoRenditions_eq, List.map_map, targets_eq]
    rfl
  rw [Ladder, and_iff_right labels]
  obtain ⟨short, narrow⟩ : ∃ short, short = min source.width source.height := ⟨_, rfl⟩
  obtain ⟨long, widest⟩ : ∃ long, long = max source.width source.height := ⟨_, rfl⟩
  have edge : 0 < short := by omega
  have longer : short ≤ long := by omega
  have goals : ∀ label ∈ Processing.planVideoRenditions source.width source.height,
      ∀ target ∈ targetShort label, target ∈ [360, 720, 1080] ∧ target ≤ short := by
    intro label labeled target choice
    rw [narrow, ← mem_targets, targets_eq, ← Option.mem_def.mp choice]
    exact List.mem_map_of_mem labeled
  have ordered : ∀ label ∈ Processing.planVideoRenditions source.width source.height,
      plannedSide short short (targetShort label) ≤ plannedSide short long (targetShort label) := by
    intro label labeled
    apply plannedSide_mono edge _ longer
    intro target choice
    have member := (goals label labeled target choice).1
    simp only [List.mem_cons, List.not_mem_nil, or_false] at member
    omega
  rw [← narrow, ← widest]
  constructor
  · intro proportioned target member downscales
    have planned : some target ∈ targets (min source.width source.height) :=
      mem_targets.mpr ⟨member, narrow ▸ downscales⟩
    rw [targets_eq] at planned
    obtain ⟨label, labeled, choice⟩ := List.mem_map.mp planned
    have sides := (proportioned_iff source label narrow widest (ordered label labeled)).mp
      (proportioned _ (mem_planVideoRenditions.mpr ⟨label, labeled, rfl⟩))
    rw [choice] at sides
    obtain ⟨shorter, contained, scaled⟩ := sides
    exact (planned_target_iff member edge downscales longer).mp
      ⟨shorter, contained, scaled target rfl⟩
  · intro recovered rendition planned
    obtain ⟨label, labeled, rfl⟩ := mem_planVideoRenditions.mp planned
    rw [proportioned_iff source label narrow widest (ordered label labeled)]
    cases choice : targetShort label with
    | none =>
        refine ⟨even_le (by omega) le_rfl, even_le (by omega) le_rfl, ?_⟩
        intro target same
        cases same
    | some target =>
        obtain ⟨member, downscales⟩ := goals label labeled target choice
        obtain ⟨shorter, contained, scaled⟩ :=
          (planned_target_iff member edge downscales longer).mpr
            (recovered target member downscales)
        refine ⟨shorter, contained, ?_⟩
        intro other same
        obtain rfl := Option.some.inj same
        exact scaled

/-- Full HD has a right ladder. -/
theorem fullHd_ladder : Ladder ⟨1920, 1080⟩ :=
  (ladder_iff ⟨1920, 1080⟩ (by decide) (by decide)).mpr (by decide +kernel)

/-- A width of 571 pixels becomes 358 and not 360. -/
theorem narrowPortrait_short : ¬ ∀ source : VideoSize, 2 ≤ source.width → 2 ≤ source.height →
    Ladder source := by
  intro right
  have planned : (⟨⟨358, 638⟩, .p360⟩ : VideoRendition) ∈ planVideoRenditions 571 1015 := by
    decide +kernel
  have scaled := ((right ⟨571, 1015⟩ (by decide) (by decide)).2 _ planned).scaled 360 rfl
  exact absurd scaled.1 (by decide)

end PostsMedia.Video
