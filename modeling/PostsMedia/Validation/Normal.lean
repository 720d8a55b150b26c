import PostsMedia.Validation.Policy

namespace PostsMedia.Validation

variable {text : Text} {unit : CodeUnit} {inside : Bool}

/-- Two units of white space do not follow each other. -/
def Spaced (unit next : CodeUnit) : Prop :=
  ¬ (Text.isWhiteSpace unit = true ∧ Text.isWhiteSpace next = true)

/-- A normalized file name. -/
structure Normal (text : Text) : Prop where
  separators : ∀ unit ∈ text, isSeparator unit = false
  controls : ∀ unit ∈ text, isControl unit = false
  spaces : ∀ unit ∈ text, Text.isWhiteSpace unit = true → unit = 0x20
  spaced : text.IsChain Spaced
  trimmed : text.trim = text
  length : 0 < text.length ∧ text.length ≤ 255

/-- Separated spaces stay as they are. -/
theorem collapse_eq (spaces : ∀ unit ∈ text, Text.isWhiteSpace unit = true → unit = 0x20)
    (spaced : text.IsChain Spaced)
    (start : inside = true → ∀ unit ∈ text.head?, Text.isWhiteSpace unit = false) :
    collapse inside text = text := by
  induction text generalizing inside with
  | nil => rfl
  | cons unit rest ih =>
      rw [List.isChain_cons] at spaced
      obtain ⟨apart, later⟩ := spaced
      have others : ∀ unit ∈ rest, Text.isWhiteSpace unit = true → unit = 0x20 :=
        fun other member => spaces other (List.mem_cons_of_mem _ member)
      rw [collapse]
      cases white : Text.isWhiteSpace unit with
      | true =>
          cases inside with
          | true =>
              have visible := start rfl unit rfl
              rw [white] at visible
              cases visible
          | false =>
              have next : ∀ other ∈ rest.head?, Text.isWhiteSpace other = false := by
                intro other head
                have separate := apart other head
                simpa [Spaced, white] using separate
              rw [if_pos rfl, if_neg Bool.false_ne_true, ih others later fun _ => next,
                spaces unit List.mem_cons_self white]
      | false =>
          have tail : collapse false rest = rest := ih others later fun same => by cases same
          rw [if_neg Bool.false_ne_true, tail]

theorem mem_collapse (member : unit ∈ collapse inside text) :
    unit = 0x20 ∨ (unit ∈ text ∧ Text.isWhiteSpace unit = false) := by
  induction text generalizing inside with
  | nil => cases member
  | cons first rest ih =>
      rw [collapse] at member
      split at member
      · split at member
        · exact (ih member).imp_right fun later => ⟨List.mem_cons_of_mem _ later.1, later.2⟩
        · rcases List.mem_cons.mp member with rfl | member
          · exact .inl rfl
          · exact (ih member).imp_right fun later => ⟨List.mem_cons_of_mem _ later.1, later.2⟩
      · rename_i visible
        rcases List.mem_cons.mp member with rfl | member
        · exact .inr ⟨List.mem_cons_self, by simpa using visible⟩
        · exact (ih member).imp_right fun later => ⟨List.mem_cons_of_mem _ later.1, later.2⟩

/-- After the replacement spaces are separated. -/
theorem collapse_spaced (text : Text) (inside : Bool) :
    (collapse inside text).IsChain Spaced ∧
      (inside = true → ∀ unit ∈ (collapse inside text).head?, Text.isWhiteSpace unit = false) := by
  induction text generalizing inside with
  | nil => exact ⟨List.IsChain.nil, by simp [collapse]⟩
  | cons unit rest ih =>
      rw [collapse]
      cases white : Text.isWhiteSpace unit with
      | true =>
          obtain ⟨chain, visible⟩ := ih true
          cases inside with
          | true => exact ⟨chain, visible⟩
          | false =>
              refine ⟨List.isChain_cons.mpr ⟨fun other head => ?_, chain⟩, nofun⟩
              simp [Spaced, visible rfl other head]
      | false =>
          obtain ⟨chain, _⟩ := ih false
          refine ⟨List.isChain_cons.mpr ⟨fun other _ => ?_, chain⟩, fun _ other head => ?_⟩
          · simp [Spaced, white]
          · cases head
            exact white

theorem trim_between (text : Text) : text.trim <:+: text :=
  (List.rdropWhile_prefix _ _).isInfix.trans (List.dropWhile_suffix _).isInfix

theorem trim_trim (text : Text) : text.trim.trim = text.trim := by
  have front : text.trim.dropWhile Text.isWhiteSpace = text.trim := by
    rw [List.dropWhile_eq_self_iff]
    intro nonempty
    have start : text.trim <+: text.dropWhile Text.isWhiteSpace := List.rdropWhile_prefix _ _
    have whole := List.dropWhile_eq_self_iff.mp
      (List.dropWhile_idempotent Text.isWhiteSpace text)
    rw [start.getElem nonempty]
    exact whole (nonempty.trans_le start.length_le)
  rw [Text.trim, front]
  exact List.rdropWhile_idempotent _ _

theorem normal_of_normalized {raw : Text} (normalized : normalizeOriginalFilename raw = .ok text) :
    Normal text := by
  unfold normalizeOriginalFilename at normalized
  dsimp only at normalized
  generalize basename : raw.rtakeWhile (fun unit => !isSeparator unit) = base at normalized
  split at normalized
  · cases normalized
  · rename_i length
    cases normalized
    have known : ∀ unit ∈ (collapse false (base.map fun unit =>
        if isControl unit then 0x20 else unit)).trim,
        unit = 0x20 ∨ (unit ∈ base ∧ isControl unit = false ∧ Text.isWhiteSpace unit = false) := by
      intro unit member
      rcases mem_collapse ((trim_between _).subset member) with space | ⟨member, visible⟩
      · exact .inl space
      · obtain ⟨old, original, same⟩ := List.mem_map.mp member
        cases control : isControl old with
        | true =>
            rw [control, if_pos rfl] at same
            exact .inl same.symm
        | false =>
            rw [control, if_neg Bool.false_ne_true] at same
            subst same
            exact .inr ⟨original, control, visible⟩
    refine ⟨fun unit member => ?_, fun unit member => ?_, fun unit member white => ?_, ?_,
      trim_trim _, by omega⟩
    · rcases known unit member with rfl | ⟨member, _⟩
      · decide
      · rw [← basename] at member
        simpa using List.mem_rtakeWhile_imp member
    · rcases known unit member with rfl | ⟨_, control, _⟩
      · decide
      · exact control
    · rcases known unit member with space | ⟨_, _, visible⟩
      · exact space
      · rw [visible] at white
        cases white
    · obtain ⟨front, back, whole⟩ := trim_between (collapse false (base.map fun unit =>
        if isControl unit then 0x20 else unit))
      have chain := (collapse_spaced (base.map fun unit =>
        if isControl unit then 0x20 else unit) false).1
      rw [← whole] at chain
      exact (List.isChain_append.mp (List.isChain_append.mp chain).1).2.1

/-- A normalized name normalizes to itself. -/
theorem Normal.normalize (normal : Normal text) : normalizeOriginalFilename text = .ok text := by
  have basename : text.rtakeWhile (fun unit => !isSeparator unit) = text := by
    rw [List.rtakeWhile_eq_self_iff]
    intro unit member
    simp [normal.separators unit member]
  have withoutControls : text.map (fun unit => if isControl unit then 0x20 else unit) = text := by
    conv_rhs => rw [← List.map_id text]
    apply List.map_congr_left
    intro unit member
    simp [normal.controls unit member]
  have collapsed : collapse false text = text :=
    collapse_eq normal.spaces normal.spaced fun same => by cases same
  have length : ¬ (text.length = 0 ∨ text.length > 255) := by
    have bounds := normal.length
    omega
  rw [normalizeOriginalFilename, basename, withoutControls, collapsed, normal.trimmed]
  exact if_neg length

theorem Normal.visible_ends (normal : Normal text) :
    (∀ unit ∈ text.head?, Text.isWhiteSpace unit = false) ∧
      ∀ unit ∈ text.getLast?, Text.isWhiteSpace unit = false := by
  have back : (text.dropWhile Text.isWhiteSpace).rdropWhile Text.isWhiteSpace = text :=
    normal.trimmed
  have start : text.dropWhile Text.isWhiteSpace = text := by
    have shorter := (List.dropWhile_suffix (l := text) Text.isWhiteSpace).length_le
    have length := congrArg List.length back
    have longer := (List.rdropWhile_prefix Text.isWhiteSpace
      (text.dropWhile Text.isWhiteSpace)).length_le
    exact (List.dropWhile_suffix _).eq_of_length (by omega)
  rw [start] at back
  constructor
  · intro unit head
    cases text with
    | nil => cases head
    | cons first rest =>
        obtain rfl := Option.some.inj head
        have visible := List.dropWhile_eq_self_iff.mp start (Nat.succ_pos _)
        simpa using visible
  · intro unit last
    have nonempty : text ≠ [] := by
      rintro rfl
      cases last
    have visible := List.rdropWhile_eq_self_iff.mp back nonempty
    rw [List.getLast?_eq_some_getLast nonempty] at last
    obtain rfl := Option.some.inj last
    simpa using visible

/-- A name in normal form, and what it has in common with the raw name. -/
structure CanonicalName (engine : Engine) (raw name : Text) : Prop where
  plain : ∀ unit ∈ name, unit ≠ 0x2F ∧ unit ≠ 0x5C ∧ ¬ unit < 32 ∧ unit ≠ 127
  leading : ∀ unit ∈ name.head?, Text.isWhiteSpace unit = false
  trailing : ∀ unit ∈ name.getLast?, Text.isWhiteSpace unit = false
  doubled : name.IsChain Spaced
  length : 1 ≤ name.length ∧ name.length ≤ 255
  fixed : normalizeOriginalFilename name = .ok name
  policy : resolveExtensionPolicy engine raw = resolveExtensionPolicy engine name

/-- A name that does not normalize is no normalized name. -/
theorem normalizeOriginalFilename_form (engine : Engine) (raw : Text) :
    match normalizeOriginalFilename raw with
    | .ok name => CanonicalName engine raw name
    | .error _ => ∀ other, normalizeOriginalFilename other ≠ .ok raw := by
  cases result : normalizeOriginalFilename raw with
  | ok name =>
      have normal := normal_of_normalized result
      have fixed := normal.normalize
      obtain ⟨leading, trailing⟩ := normal.visible_ends
      refine ⟨?_, leading, trailing, normal.spaced, normal.length, fixed, ?_⟩
      · intro unit member
        have separator := normal.separators unit member
        have control := normal.controls unit member
        simp only [isSeparator, isControl, Bool.or_eq_false_iff, decide_eq_false_iff_not]
          at separator control
        exact ⟨separator.1, separator.2, control.1, control.2⟩
      · rw [resolveExtensionPolicy, resolveExtensionPolicy, result, fixed]
  | error error =>
      intro other same
      rw [(normal_of_normalized same).normalize] at result
      cases result

end PostsMedia.Validation
