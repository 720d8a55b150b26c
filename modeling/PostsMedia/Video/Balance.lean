import Mathlib.Tactic.LinearCombination
import PostsMedia.Video.Ladder

namespace PostsMedia.Video

open Doubles

open Processing (RenditionLabel)

variable {source frame : VideoSize} {short long side target : ℕ}

/-- The steps of two pixels by which the rounding errors move the long edge. A moderate size loses
one when its proportional length is an even number that is not restored. -/
def drift (short long target : ℕ) : ℤ :=
  if target * long < 2 ^ 51 then
    if target * long % (2 * short) = 0 ∧ ¬ Restores (target * long / short) long then -1 else 0
  else ⌊(long * target / short + (long * roundoff (target / short) +
    roundoff (long * toDouble (target / short)))) / 2⌋ - (target * long / (2 * short) : ℕ)

/-- The area by which the planned box misses the aspect ratio of the source. Of the long edge two
pixels are lost at most, and of the short one two when its target is not recovered. -/
def imbalance (short long : ℕ) : Option ℕ → ℤ
  | none => (long % 2 * short : ℕ) - (short % 2 * long : ℕ)
  | some target => (target * long % (2 * short) : ℕ) - 2 * drift short long target * short -
      if Recovers target short then 0 else 2 * long

/-- In pixels of the side that the scaler derives again, the imbalance is nearest to an even
number. -/
def Balanced (source : VideoSize) (target : Option ℕ) : Prop :=
  let short := min source.width source.height
  let long := max source.width source.height
  let imbalance := imbalance short long target
  Even ⌈((|imbalance| : ℤ) : ℚ) / (if 0 ≤ imbalance then long else short : ℕ) - 1 / 2⌉

instance (source : VideoSize) (target : Option ℕ) : Decidable (Balanced source target) :=
  inferInstanceAs (Decidable (Even (_ : ℤ)))

/-- Less than two sides are nearest to no side or to two of them. -/
theorem even_lost_iff {lost : ℕ} (positive : 0 < side) (less : lost < 2 * side) :
    Even ⌈(lost : ℚ) / side - 1 / 2⌉ ↔ 2 * lost ≤ side ∨ 3 * side < 2 * lost := by
  have positive' : (0 : ℚ) < side := by exact_mod_cast positive
  have nonneg : (0 : ℚ) ≤ lost / side := by positivity
  have less' : (lost / side : ℚ) < 2 := by
    rw [div_lt_iff₀ positive']
    exact_mod_cast less
  have half : (lost / side : ℚ) ≤ 1 / 2 ↔ 2 * lost ≤ side := by
    rw [div_le_div_iff₀ positive' (by norm_num), mul_comm, one_mul]
    exact_mod_cast Iff.rfl
  have more : (lost / side : ℚ) ≤ 3 / 2 ↔ 2 * lost ≤ 3 * side := by
    rw [div_le_div_iff₀ positive' (by norm_num), mul_comm]
    exact_mod_cast Iff.rfl
  rcases le_or_gt (lost / side : ℚ) (1 / 2) with near | far
  · have none : ⌈(lost : ℚ) / side - 1 / 2⌉ = 0 := by
      rw [Int.ceil_eq_iff]
      constructor <;> push_cast <;> linarith
    rw [none]
    exact iff_of_true Even.zero (.inl (half.mp near))
  rcases le_or_gt (lost / side : ℚ) (3 / 2) with near | beyond
  · have one : ⌈(lost : ℚ) / side - 1 / 2⌉ = 1 := by
      rw [Int.ceil_eq_iff]
      constructor <;> push_cast <;> linarith
    have first := mt half.mpr (not_le.mpr far)
    have second := more.mp near
    simp only [one, Int.not_even_one, false_iff]
    omega
  · have two : ⌈(lost : ℚ) / side - 1 / 2⌉ = 2 := by
      rw [Int.ceil_eq_iff]
      constructor <;> push_cast <;> linarith
    have second := mt more.mpr (not_le.mpr beyond)
    simp only [two, even_two, true_iff]
    omega

/-- Where no rounding of a double matters, the remainder of the proportional length decides. -/
theorem balanced_iff_of_recovers (positive : 0 < min source.width source.height)
    (moderate : target * max source.width source.height < 2 ^ 51)
    (recovers : Recovers target (min source.width source.height))
    (inexact : target * max source.width source.height % (2 * min source.width source.height) ≠ 0) :
    Balanced source (some target) ↔
      2 * (target * max source.width source.height % (2 * min source.width source.height)) ≤
          max source.width source.height ∨
        3 * max source.width source.height <
          2 * (target * max source.width source.height % (2 * min source.width source.height)) := by
  have longer : min source.width source.height ≤ max source.width source.height := min_le_max
  simp only [Balanced, imbalance, drift, if_pos moderate, if_pos recovers]
  generalize max source.width source.height = long at longer inexact ⊢
  generalize min source.width source.height = short at positive longer inexact ⊢
  have rest := Nat.mod_lt (target * long) (by omega : 0 < 2 * short)
  rw [if_neg (by simp [inexact]), ← even_lost_iff (by omega) (by omega), mul_zero, zero_mul,
    Nat.cast_zero, sub_zero, sub_zero, if_pos (Int.natCast_nonneg _), Nat.abs_cast,
    Int.cast_natCast]

/-- A ladder target is far above the least side. -/
theorem large_of_targets (member : some target ∈ targets short) : 360 ≤ target := by
  have ladder := (mem_targets.mp member).1
  simp only [List.mem_cons, List.not_mem_nil, or_false] at ladder
  omega

/-- An integer loses its last bit. -/
theorem even_natCast (two : 2 ≤ side) : even side = side / 2 * 2 := by
  have floor : ⌊(side : ℚ) / 2⌋₊ = side / 2 := Nat.floor_div_eq_div side 2
  rw [even, floor]
  omega

/-- The product of a long edge is far above the least side. -/
theorem two_le_product (edge : 0 < short) (goal : 360 ≤ target) (longer : short ≤ long) :
    2 ≤ toDouble (long * toDouble (target / short)) := by
  have edge' : (0 : ℚ) < short := by exact_mod_cast edge
  have goal' : (360 : ℚ) ≤ target := by exact_mod_cast goal
  have longer' : (short : ℚ) ≤ long := by exact_mod_cast longer
  have scale : (target / short / 2 : ℚ) < toDouble (target / short) :=
    half_lt_toDouble (by positivity)
  have product : (180 : ℚ) ≤ long * toDouble (target / short) := by
    calc (180 : ℚ) ≤ target / 2 := by linarith
      _ = short * (target / short / 2) := by field_simp
      _ ≤ long * toDouble (target / short) :=
          mul_le_mul longer' scale.le (by positivity) (by positivity)
  have half : long * toDouble (target / short) / 2 <
      toDouble (long * toDouble (target / short)) := half_lt_toDouble (by linarith)
  linarith

/-- The rounding error of a moderate length is below a quarter of the distance of two lengths. -/
theorem error_lt (edge : 0 < short) (moderate : target * long < 2 ^ 51) :
    (long * target / short / 2 ^ 53 : ℚ) < 1 / short / 4 := by
  have edge' : (0 : ℚ) < short := by exact_mod_cast edge
  have small : (long * target : ℚ) < 2 ^ 51 := by
    rw [mul_comm]
    exact_mod_cast moderate
  rw [div_right_comm, div_right_comm 1, div_lt_div_iff_of_pos_right edge']
  norm_num at small ⊢
  linarith

/-- A moderate length is not rounded up to the next even number. -/
theorem product_lt (edge : 0 < short) (goal : 0 < target) (side : 0 < long)
    (moderate : target * long < 2 ^ 51) :
    toDouble (long * toDouble (target / short)) < 2 * (target * long / (2 * short) : ℕ) + 2 := by
  have edge' : (0 : ℚ) < short := by exact_mod_cast edge
  have error := error_lt edge moderate
  have division := Nat.div_add_mod (target * long) (2 * short)
  have rest := Nat.mod_lt (target * long) (by omega : 0 < 2 * short)
  have exact : (long * target / short : ℚ) + 1 / short ≤
      2 * (target * long / (2 * short) : ℕ) + 2 := by
    rw [← add_div, div_le_iff₀ edge']
    have whole : long * target + 1 ≤ (2 * (target * long / (2 * short)) + 2) * short := by
      nlinarith
    exact_mod_cast whole
  obtain ⟨_, above⟩ := abs_le.mp (abs_product_sub_le long edge goal)
  obtain ⟨_, up⟩ := abs_le.mp (abs_toDouble_sub_le_div (rounded_product_pos edge goal side))
  have positive : (0 : ℚ) < 1 / short := by positivity
  generalize (1 / short : ℚ) = unit at error exact positive
  norm_num at error above up
  linarith

/-- A moderate length keeps its even number, unless it is one and is not restored. -/
theorem floor_product (edge : 0 < short) (goal : 360 ≤ target) (longer : short ≤ long)
    (moderate : target * long < 2 ^ 51) :
    ⌊toDouble (long * toDouble (target / short)) / 2⌋ =
      (target * long / (2 * short) : ℕ) + drift short long target := by
  have edge' : (0 : ℚ) < short := by exact_mod_cast edge
  have division := Nat.div_add_mod (target * long) (2 * short)
  have upper := product_lt edge (by omega) (by omega) moderate
  have product := (abs_le.mp (abs_product_sub_le long edge (by omega : 0 < target))).1
  rw [drift, if_pos moderate]
  obtain ⟨half, halved⟩ : ∃ half, half = target * long / (2 * short) := ⟨_, rfl⟩
  rw [← halved] at division upper ⊢
  have large : 180 ≤ half := by
    rw [halved, Nat.le_div_iff_mul_le (by omega)]
    nlinarith
  have large' : (180 : ℚ) ≤ half := by exact_mod_cast large
  have split : target * long = 2 * half * short + target * long % (2 * short) := by
    conv_lhs => rw [← division]
    ring
  have small : 2 * half < 2 ^ 51 := by
    have low : 2 * half * 1 ≤ 2 * half * short := Nat.mul_le_mul_left _ edge
    omega
  have integer (n : ℕ) (least : 1 ≤ n) (fits : n ≤ 2 * half)
      (reaches : (n : ℚ) ≤ long * toDouble (target / short)) :
      (n : ℚ) ≤ toDouble (long * toDouble (target / short)) := by
    rw [← toDouble_natCast least (by omega)]
    exact toDouble_mono (by exact_mod_cast least) reaches
  by_cases whole : target * long % (2 * short) = 0
  · -- the exact length is an even number
    have exact : target * long = 2 * half * short := by rw [split, whole, Nat.add_zero]
    have length : (long * target / short : ℚ) = (2 * half : ℕ) := by
      rw [div_eq_iff edge'.ne', mul_comm]
      exact_mod_cast exact
    have quotient : (target / short : ℚ) = (2 * half : ℕ) / long := by
      have side : (0 : ℚ) < long := by exact_mod_cast (by omega : 0 < long)
      rw [div_eq_div_iff edge'.ne' side.ne']
      exact_mod_cast exact
    have bits : Nat.log 2 (2 * half) < 52 :=
      Nat.log_lt_of_lt_pow (by omega) (small.trans (by norm_num))
    have restores := le_toDouble_mul_iff_restores (t := 2 * half) (s := long) (by omega) bits
      (by omega)
    rw [← quotient] at restores
    rw [exact, Nat.mul_div_cancel _ edge]
    by_cases kept : Restores (2 * half) long
    · have reaches := restores.mpr kept
      push_cast at reaches
      rw [if_neg (by simp [kept]), Int.floor_eq_iff]
      push_cast
      constructor <;> linarith
    · have misses := not_le.mp (mt restores.mp kept)
      rw [length] at product
      have reaches := integer (2 * half - 2) (by omega) (by omega) (by
        rw [Nat.cast_sub (by omega)]
        have small' : ((2 * half : ℕ) : ℚ) < 2 ^ 51 := by exact_mod_cast small
        norm_num at product small' ⊢
        linarith)
      rw [Nat.cast_sub (by omega)] at reaches
      push_cast at reaches misses
      rw [if_pos ⟨by rw [← exact]; exact whole, kept⟩, Int.floor_eq_iff]
      push_cast
      constructor <;> linarith
  · have reaches := integer (2 * half) (by omega) le_rfl (by
      have above : ((2 * half : ℕ) + 1 / short : ℚ) ≤ long * target / short := by
        rw [le_div_iff₀ edge', add_mul, one_div_mul_cancel edge'.ne', mul_comm (long : ℚ)]
        exact_mod_cast (by omega : 2 * half * short + 1 ≤ target * long)
      have error := error_lt edge moderate
      have positive : (0 : ℚ) < 1 / short := by positivity
      linarith)
    push_cast at reaches
    rw [if_neg (by simp [whole]), Int.floor_eq_iff]
    push_cast
    constructor <;> linarith

/-- The planned long edge of a ladder target. -/
theorem plannedSide_long_eq (edge : 0 < short) (goal : 360 ≤ target) (longer : short ≤ long) :
    (plannedSide short long (some target) : ℤ) =
      2 * ((target * long / (2 * short) : ℕ) + drift short long target) := by
  have floor : ⌊toDouble (long * toDouble (target / short)) / 2⌋ =
      (target * long / (2 * short) : ℕ) + drift short long target := by
    by_cases moderate : target * long < 2 ^ 51
    · exact floor_product edge goal longer moderate
    · have errors : (long * target / short + (long * roundoff (target / short) +
          roundoff (long * toDouble (target / short))) : ℚ) =
            toDouble (long * toDouble (target / short)) := by
        unfold roundoff
        ring
      rw [drift, if_neg moderate, errors]
      ring
  rw [← floor, plannedSide]
  exact_mod_cast even_eq (two_le_product edge goal longer)

/-- The planned short edge of a ladder target. -/
theorem plannedSide_short_eq (member : target ∈ [360, 720, 1080]) (edge : 0 < short) :
    (plannedSide short short (some target) : ℤ) =
      target - if Recovers target short then 0 else 2 := by
  have least : 360 ≤ target := by
    simp only [List.mem_cons, List.not_mem_nil, or_false] at member
    omega
  have recovers := plannedSide_short_iff member edge
  have cases := plannedSide_short_cases member edge
  split_ifs with recovered
  · have same := recovers.mpr recovered
    omega
  · have lost := cases.resolve_left (mt recovers.mp recovered)
    omega

/-- The planned box misses the aspect ratio by the imbalance. -/
theorem planned_imbalance {choice : Option ℕ} (member : choice ∈ targets short) (two : 2 ≤ short)
    (longer : short ≤ long) :
    (plannedSide short short choice * long - plannedSide short long choice * short : ℤ) =
      imbalance short long choice := by
  cases choice with
  | none =>
      have shorter := Nat.div_add_mod short 2
      have longest := Nat.div_add_mod long 2
      simp only [plannedSide, imbalance, even_natCast two, even_natCast (two.trans longer)]
      zify at shorter longest ⊢
      linear_combination long * shorter - short * longest
  | some target =>
      have division := Nat.div_add_mod (target * long) (2 * short)
      rw [plannedSide_short_eq (mem_targets.mp member).1 (by omega),
        plannedSide_long_eq (by omega) (large_of_targets member) longer, imbalance]
      zify at division ⊢
      split_ifs <;> linear_combination -division

/-- The sign of the imbalance only says which side the scaler derives again. -/
theorem derived_neg (m : ℤ) (short long : ℕ) :
    (|((-m : ℤ) : ℚ)| / (if (0 : ℚ) ≤ (-m : ℤ) then short else long : ℕ) : ℚ) =
      ((|m| : ℤ) : ℚ) / (if 0 ≤ m then long else short : ℕ) := by
  rcases lt_trichotomy m 0 with negative | rfl | positive
  · have back : (0 : ℚ) ≤ (-m : ℤ) := by exact_mod_cast (by omega : 0 ≤ -m)
    rw [if_pos back, if_neg (by omega), Int.cast_neg, abs_neg, Int.cast_abs]
  · simp
  · have back : ¬ (0 : ℚ) ≤ (-m : ℤ) := by exact_mod_cast (by omega : ¬ 0 ≤ -m)
    rw [if_neg back, if_pos positive.le, Int.cast_neg, abs_neg, Int.cast_abs]

/-- The frame of a planned rendition is even when its target is balanced. -/
theorem planned_encodable_iff (wide : 2 ≤ source.width) (tall : 2 ≤ source.height)
    {label : RenditionLabel}
    (labeled : label ∈ Processing.planVideoRenditions source.width source.height) :
    (scaleDecrease (plannedRendition source label).width (plannedRendition source label).height
      source).Encodable ↔ Balanced source (targetShort label) := by
  have member : targetShort label ∈ targets (min source.width source.height) := by
    rw [targets_eq]
    exact List.mem_map_of_mem labeled
  have missed := planned_imbalance member (by omega) (min_le_max (a := source.width))
  refine (encodable_scaled ⟨even_plannedSide _ _ _, even_plannedSide _ _ _⟩ (by omega) (by omega)
    rfl).trans ?_
  rw [Balanced, ← missed]
  rcases le_total source.height source.width with landscape | portrait
  · have ratio : (plannedSide source.height source.height (targetShort label) * source.width -
        plannedSide source.height source.width (targetShort label) * source.height : ℚ) =
          ((plannedSide source.height source.height (targetShort label) * source.width -
            plannedSide source.height source.width (targetShort label) * source.height : ℤ) : ℚ) :=
      by push_cast; rfl
    rw [min_eq_right landscape, max_eq_left landscape, ratio]
    simp only [Int.cast_nonneg_iff, Int.cast_abs]
  · have ratio : (plannedSide source.width source.height (targetShort label) * source.width -
        plannedSide source.width source.width (targetShort label) * source.height : ℚ) =
          ((-(plannedSide source.width source.width (targetShort label) * source.height -
            plannedSide source.width source.height (targetShort label) * source.width) : ℤ) : ℚ) :=
      by push_cast; ring
    rw [min_eq_left portrait, max_eq_right portrait, ratio, derived_neg]

theorem balanced_targets_iff (wide : 2 ≤ source.width) (tall : 2 ≤ source.height) :
    (∀ target ∈ targets (min source.width source.height), Balanced source target) ↔
      ∀ rendition ∈ planVideoRenditions source.width source.height,
        (scaleDecrease rendition.width rendition.height source).Encodable := by
  rw [targets_eq, List.forall_mem_map]
  constructor
  · intro balances rendition planned
    obtain ⟨label, labeled, rfl⟩ := mem_planVideoRenditions.mp planned
    exact (planned_encodable_iff wide tall labeled).mpr (balances label labeled)
  · intro frames label labeled
    rw [← planned_encodable_iff wide tall labeled]
    exact frames _ (mem_planVideoRenditions.mpr ⟨label, labeled, rfl⟩)

/-- The worker's commands for a video encode even frames exactly when the targets of its display
size are balanced. -/
theorem renditionCommands_even_iff (inputPath workspace : String) (video : VideoStream)
    (hasAudio : Bool) (wide : 2 ≤ video.displaySize.width)
    (tall : 2 ≤ video.displaySize.height) :
    (∀ args ∈ renditionCommands inputPath workspace video hasAudio, ∀ frame,
      Encodes args video.displaySize frame → frame.Encodable) ↔
      ∀ target ∈ targets (min video.displaySize.width video.displaySize.height),
        Balanced video.displaySize target := by
  rw [balanced_targets_iff wide tall, renditionCommands, List.forall_mem_map]
  simp only [encodes_iff, forall_eq]

/-- Every rendition of a source has even frames exactly when all its targets are balanced. -/
theorem evenFrames_iff (source : VideoSize) (wide : 2 ≤ source.width) (tall : 2 ≤ source.height) :
    (∀ options frame, options.rendition ∈ planVideoRenditions source.width source.height →
      Encodes (buildVideoRenditionArgs options) source frame → frame.Encodable) ↔
      ∀ target ∈ targets (min source.width source.height), Balanced source target := by
  rw [balanced_targets_iff wide tall]
  constructor
  · intro frames rendition planned
    exact frames { inputPath := "", outputPath := "", rendition, hasAudio := false } _ planned
      ((encodes_iff _).mpr rfl)
  · intro frames options frame planned encodes
    rw [encodes_iff] at encodes
    rw [encodes]
    exact frames _ planned

/-- A full HD video has renditions, and all of them have even frames. -/
theorem fullHd_even : planVideoRenditions 1920 1080 ≠ [] ∧
    ∀ options frame, options.rendition ∈ planVideoRenditions 1920 1080 →
      Encodes (buildVideoRenditionArgs options) ⟨1920, 1080⟩ frame → frame.Encodable :=
  ⟨by decide +kernel,
    (evenFrames_iff ⟨1920, 1080⟩ (by decide) (by decide)).mpr (by decide +kernel)⟩

/-- The smallest rendition of a tall portrait video. -/
def tallRendition : VideoRendition where
  label := .p360
  width := 360
  height := 778

theorem tallRendition_planned : tallRendition ∈ planVideoRenditions 828 1792 := by
  decide +kernel

/-- The scaler makes it 359 pixels wide. -/
theorem tallPortrait_odd : ¬ ∀ (source : VideoSize), 2 ≤ source.width → 2 ≤ source.height →
    ∀ options frame, options.rendition ∈ planVideoRenditions source.width source.height →
      Encodes (buildVideoRenditionArgs options) source frame → frame.Encodable := by
  intro even
  have encodable := even ⟨828, 1792⟩ (by decide) (by decide)
    { inputPath := "", outputPath := "", rendition := tallRendition, hasAudio := false } _
    tallRendition_planned ((encodes_iff _).mpr rfl)
  have width : (scaleDecrease 360 778 ⟨828, 1792⟩).width = 359 := by decide +kernel
  have odd : Even 359 := width ▸ encodable.1
  revert odd
  decide

end PostsMedia.Video
