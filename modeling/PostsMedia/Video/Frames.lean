import PostsMedia.Library.Segments
import PostsMedia.Video.Renditions

namespace PostsMedia.Video

open Doubles

open Processing (RenditionLabel)

variable {source frame : VideoSize} {width height side : ℕ}

/-- The target short edges of a source. A small source keeps its own size. -/
def targets (short : ℕ) : List (Option ℕ) :=
  if short < 360 then [none] else ([360, 720, 1080].filter (· ≤ short)).map some

/-- The filter text names both sides of its box. -/
theorem videoFilter_inj {width' height' fps fps' : ℕ}
    (same : videoFilter width height fps = videoFilter width' height' fps') :
    width = width' ∧ height = height' := by
  have plain : ∀ n : ℕ, ':' ∉ (toString n).toList := Segments.plain_toString (by decide)
  have texts := congrArg String.toList same
  have start : (toString "scale=").toList = "scale=".toList := rfl
  have colon : (toString ":").toList = [':'] := rfl
  have options : (toString ":force_original_aspect_ratio=decrease,fps=").toList =
      ':' :: "force_original_aspect_ratio=decrease,fps=".toList := rfl
  simp only [videoFilter, String.toList_append, start, colon, options, List.append_assoc,
    List.cons_append, List.nil_append, List.append_cancel_left_eq] at texts
  obtain ⟨widths, rest⟩ := Segments.split_inj (plain _) (plain _) texts
  obtain ⟨heights, _⟩ := Segments.split_inj (plain _) (plain _) rest
  exact ⟨Segments.toString_inj widths, Segments.toString_inj heights⟩

theorem filterOf_args (options : VideoCommandOptions) :
    filterOf (buildVideoRenditionArgs options) = some (videoFilter options.rendition.width
      options.rendition.height (options.maxFps.getD 30)) := by
  unfold buildVideoRenditionArgs
  cases options.hasAudio <;> rfl

/-- The frame of a rendition is its box, cut to the aspect ratio of the source. -/
theorem encodes_iff (options : VideoCommandOptions) :
    Encodes (buildVideoRenditionArgs options) source frame ↔
      frame = scaleDecrease options.rendition.width options.rendition.height source := by
  constructor
  · rintro ⟨width, height, fps, filter, rfl⟩
    rw [filterOf_args, Option.some.injEq] at filter
    obtain ⟨widths, heights⟩ := videoFilter_inj filter
    rw [widths, heights]
  · intro scaled
    exact ⟨_, _, _, filterOf_args options, scaled⟩

/-- The side that the box cuts is kept. -/
theorem kept_side (n : ℕ) {value : ℚ} (large : n ≤ value) : min n (nearest value) = n := by
  have reaches : n ≤ nearest value := Nat.le_floor (by linarith)
  exact Nat.min_eq_left reaches

/-- The side that the scaler derives again loses its distance to the box, rounded half down. -/
theorem derived_side (n : ℕ) {x : ℚ} (nonneg : 0 ≤ x) (small : x ≤ n) :
    ((min n (nearest (n - x)) : ℕ) : ℤ) = n - ⌈x - 1 / 2⌉ := by
  have positive : (0 : ℚ) ≤ n - x + 1 / 2 := by linarith
  have floor : (nearest (n - x) : ℤ) = n - ⌈x - 1 / 2⌉ := by
    have shifted : (n : ℚ) - x + 1 / 2 = -(x - 1 / 2) + (n : ℕ) := by ring
    rw [nearest, Int.natCast_floor_eq_floor positive, shifted, Int.floor_add_natCast,
      Int.floor_neg]
    ring
  have lost : 0 ≤ ⌈x - 1 / 2⌉ := by
    apply Int.ceil_nonneg_of_neg_one_lt
    linarith
  rw [Nat.cast_min, floor]
  omega

/-- An even side stays even when it loses an even number. -/
theorem even_derived {n m : ℕ} {lost : ℤ} (even : Even n) (left : (m : ℤ) = n - lost) :
    Even m ↔ Even lost := by
  rw [← Int.even_coe_nat, left, Int.even_sub, Int.even_coe_nat]
  simp [even]

/-- A frame in an even box is even when the derived side loses an even number of pixels. -/
theorem encodable_scaled (box : Even width ∧ Even height) (wide : 0 < source.width)
    (tall : 0 < source.height) {imbalance : ℚ}
    (apart : imbalance = height * source.width - width * source.height) :
    (scaleDecrease width height source).Encodable ↔
      Even ⌈|imbalance| / ((if 0 ≤ imbalance then source.width else source.height : ℕ) : ℚ) -
        1 / 2⌉ := by
  have wide' : (0 : ℚ) < source.width := by exact_mod_cast wide
  have tall' : (0 : ℚ) < source.height := by exact_mod_cast tall
  unfold VideoSize.Encodable scaleDecrease
  by_cases sign : 0 ≤ imbalance
  · rw [if_pos sign, abs_of_nonneg sign]
    have keeps : (width : ℚ) ≤ height * source.width / source.height := by
      rw [le_div_iff₀ tall']
      linarith
    have derives : (width * source.height / source.width : ℚ) =
        height - imbalance / source.width := by
      rw [apart]
      field_simp
      ring
    have bounded : imbalance / source.width ≤ height := by
      have nonneg : (0 : ℚ) ≤ width * source.height / source.width := by positivity
      linarith
    have height' := derived_side height (div_nonneg sign wide'.le) bounded
    simp only [kept_side width keeps, derives, box.1, true_and]
    exact even_derived box.2 height'
  · rw [if_neg sign, abs_of_neg (not_le.mp sign)]
    have flipped : 0 ≤ -imbalance := by linarith
    have keeps : (height : ℚ) ≤ width * source.height / source.width := by
      rw [le_div_iff₀ wide']
      linarith
    have derives : (height * source.width / source.height : ℚ) =
        width - -imbalance / source.height := by
      rw [apart]
      field_simp
      ring
    have bounded : -imbalance / source.height ≤ width := by
      have nonneg : (0 : ℚ) ≤ height * source.width / source.height := by positivity
      linarith
    have width' := derived_side width (div_nonneg flipped tall'.le) bounded
    simp only [kept_side height keeps, derives, box.2, and_true]
    exact even_derived box.1 width'

theorem even_even (value : ℚ) : Even (even value) := by
  rw [even, Nat.even_iff]
  omega

/-- Two pixels are the least side. -/
theorem even_eq {value : ℚ} (large : 2 ≤ value) : (even value : ℚ) = 2 * ⌊value / 2⌋ := by
  have one : 1 ≤ ⌊value / 2⌋₊ := Nat.le_floor (by push_cast; linarith)
  have cast : ((⌊value / 2⌋₊ : ℕ) : ℤ) = ⌊value / 2⌋ :=
    Int.natCast_floor_eq_floor (by linarith)
  rw [even, Nat.max_eq_right (by omega), ← cast]
  push_cast
  ring

/-- One planned side of the rendition for a target. -/
def plannedSide (short side : ℕ) : Option ℕ → ℕ
  | none => even side
  | some target => even (toDouble (side * toDouble (target / short)))

theorem even_plannedSide (short side : ℕ) (target : Option ℕ) :
    Even (plannedSide short side target) := by
  cases target <;> exact even_even _

theorem planVideoRenditions_eq (width height : ℕ) :
    planVideoRenditions width height =
      (Processing.planVideoRenditions width height).map fun label =>
      { label
        width := plannedSide (min width height) width (targetShort label)
        height := plannedSide (min width height) height (targetShort label) } := by
  unfold planVideoRenditions
  apply List.map_congr_left
  intro label _
  cases targetShort label with
  | none => rfl
  | some target => simp only [plannedSide, ite_self]

theorem targets_eq (width height : ℕ) : targets (min width height) =
    (Processing.planVideoRenditions width height).map targetShort := by
  simp only [targets, Processing.planVideoRenditions]
  generalize min width height = short
  by_cases small : short < 360
  · simp [small, targetShort]
  have first : 360 ≤ short := by omega
  by_cases medium : short < 720
  · have second : ¬ 720 ≤ short := by omega
    have third : ¬ 1080 ≤ short := by omega
    simp [small, medium, first, second, third, targetShort]
  have second : 720 ≤ short := by omega
  by_cases large : short < 1080
  · have third : ¬ 1080 ≤ short := by omega
    simp [small, medium, large, first, second, third, targetShort]
  · have third : 1080 ≤ short := by omega
    simp [small, medium, large, first, second, third, targetShort]

/-- The rendition for a label. -/
def plannedRendition (source : VideoSize) (label : RenditionLabel) : VideoRendition where
  label := label
  width := plannedSide (min source.width source.height) source.width (targetShort label)
  height := plannedSide (min source.width source.height) source.height (targetShort label)

theorem mem_planVideoRenditions {rendition : VideoRendition} :
    rendition ∈ planVideoRenditions source.width source.height ↔
      ∃ label ∈ Processing.planVideoRenditions source.width source.height,
        plannedRendition source label = rendition := by
  rw [planVideoRenditions_eq, List.mem_map]
  rfl

end PostsMedia.Video
