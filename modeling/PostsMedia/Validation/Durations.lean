import Mathlib.Order.WithBot
import PostsMedia.Validation.Soundness

namespace PostsMedia.Validation

variable {engine : Engine} {document : Value} {streams : List Value} {x y : Number}
  {top : WithBot ℚ}

def durationOf (engine : Engine) (stream : Value) : Option Number :=
  (stream.chain "duration").toNumber engine

/-- The container of a document has no finite duration. -/
def Untimed (engine : Engine) (document : Value) : Prop :=
  ∃ format number, document.get "format" = some format ∧
    durationOf engine format = some number ∧ number.isFinite = false

/-- The greatest of the finite durations of the streams. -/
def Longest (engine : Engine) (streams : List Value) (longest : ℚ) : Prop :=
  (∃ stream ∈ streams, durationOf engine stream = some (.finite longest)) ∧
    ∀ stream ∈ streams, ∀ duration, durationOf engine stream = some (.finite duration) →
      duration ≤ longest

/-- The duration of a stream converts to a number that the fold can pass over. -/
def Measured (engine : Engine) (stream : Value) : Prop :=
  ∃ number, durationOf engine stream = some number ∧ number ≠ .nan ∧ number ≠ .infinity false

section Levels

/-- The numbers up to the finite ones, in their order. -/
def level : WithBot ℚ → Number
  | ⊥ => .infinity true
  | (duration : ℚ) => .finite duration

theorem mathMax_level (x y : WithBot ℚ) : (level x).mathMax (level y) = level (max x y) := by
  induction x using WithBot.recBotCoe with
  | bot => induction y using WithBot.recBotCoe <;> simp [level, Number.mathMax, Number.lt]
  | coe x =>
      induction y using WithBot.recBotCoe with
      | bot => simp [level, Number.mathMax, Number.lt]
      | coe y =>
          simp only [level, Number.mathMax, Number.lt, decide_eq_true_eq]
          split_ifs with less
          · rw [max_eq_right (by exact_mod_cast less.le)]
          · rw [max_eq_left (by exact_mod_cast not_lt.mp less)]

theorem level_iff : (∃ duration, x = level duration) ↔ x ≠ .nan ∧ x ≠ .infinity false := by
  constructor
  · rintro ⟨duration, rfl⟩
    induction duration using WithBot.recBotCoe <;> simp [level]
  · rintro ⟨number, bounded⟩
    cases x with
    | nan => exact absurd rfl number
    | infinity negative =>
        cases negative with
        | false => exact absurd rfl bounded
        | true => exact ⟨⊥, rfl⟩
    | finite value => exact ⟨(value : ℚ), rfl⟩

theorem level_injective : Function.Injective level := by
  intro first second same
  induction first using WithBot.recBotCoe <;> induction second using WithBot.recBotCoe <;>
    simp_all [level]

/-- Not a number and the positive infinity absorb the other argument. -/
theorem level_of_mathMax (same : x.mathMax y = level top) :
    (∃ lower, x = level lower) ∧ ∃ other, y = level other := by
  rw [level_iff, level_iff]
  have kept := level_iff.mp ⟨top, same⟩
  revert kept
  cases x with
  | nan => simp [Number.mathMax]
  | infinity negative =>
      cases y with
      | nan => simp [Number.mathMax]
      | infinity other => cases negative <;> cases other <;> simp [Number.mathMax, Number.lt]
      | finite value => cases negative <;> simp [Number.mathMax, Number.lt]
  | finite value =>
      cases y with
      | nan => simp [Number.mathMax]
      | infinity other => cases other <;> simp [Number.mathMax, Number.lt]
      | finite other => simp

end Levels

section Fold

theorem measured_iff {stream : Value} :
    Measured engine stream ↔ ∃ duration, durationOf engine stream = some (level duration) := by
  unfold Measured
  constructor
  · rintro ⟨number, converted, measured⟩
    obtain ⟨duration, rfl⟩ := level_iff.mpr measured
    exact ⟨duration, converted⟩
  · rintro ⟨duration, converted⟩
    exact ⟨_, converted, level_iff.mp ⟨duration, rfl⟩⟩

/-- Over measured streams the fold finds the greatest duration, or keeps what it started with. -/
theorem streamsDuration_measured (measured : ∀ stream ∈ streams, Measured engine stream)
    (start : WithBot ℚ) : ∃ top, streamsDuration engine (level start) streams = .ok (level top) ∧
      start ≤ top ∧ (top = start ∨
        ∃ stream ∈ streams, durationOf engine stream = some (level top)) ∧
      ∀ stream ∈ streams, ∀ duration, durationOf engine stream = some (level duration) →
        duration ≤ top := by
  induction streams generalizing start with
  | nil => exact ⟨start, rfl, le_rfl, Or.inl rfl, by simp⟩
  | cons stream rest ih =>
      obtain ⟨duration, converted⟩ := measured_iff.mp (measured stream List.mem_cons_self)
      obtain ⟨top, folded, above, attained, greatest⟩ :=
        ih (fun other member => measured other (List.mem_cons_of_mem _ member)) (max start duration)
      refine ⟨top, ?_, (le_max_left _ _).trans above, ?_, ?_⟩
      · rw [← mathMax_level] at folded
        unfold durationOf at converted
        rw [streamsDuration, converted]
        exact folded
      · rcases attained with first | ⟨other, member, found⟩
        · rcases max_choice start duration with kept | taken
          · exact Or.inl (first.trans kept)
          · refine Or.inr ⟨stream, List.mem_cons_self, ?_⟩
            rw [first, taken]
            exact converted
        · exact Or.inr ⟨other, List.mem_cons_of_mem _ member, found⟩
      · intro other member duration' found
        rcases List.mem_cons.mp member with rfl | later
        · rw [converted, Option.some.injEq] at found
          rw [← level_injective found]
          exact (le_max_right _ _).trans above
        · exact greatest other later duration' found

/-- A fold that ends with a finite duration has passed measured streams only. -/
theorem measured_of_streamsDuration {start : Number}
    (folded : streamsDuration engine start streams = .ok (level top)) :
    (∃ lower, start = level lower) ∧ ∀ stream ∈ streams, Measured engine stream := by
  induction streams generalizing start with
  | nil =>
      obtain rfl := Except.ok.inj folded
      exact ⟨⟨top, rfl⟩, by simp⟩
  | cons stream rest ih =>
      rw [streamsDuration] at folded
      cases converted : (stream.chain "duration").toNumber engine with
      | none =>
          rw [converted] at folded
          cases folded
      | some number =>
          rw [converted] at folded
          obtain ⟨ordered, others⟩ := ih folded
          obtain ⟨lower, same⟩ := ordered
          obtain ⟨first, second⟩ := level_of_mathMax same
          refine ⟨first, ?_⟩
          intro other member
          rcases List.mem_cons.mp member with rfl | later
          · obtain ⟨duration, rfl⟩ := second
            exact measured_iff.mpr ⟨duration, converted⟩
          · exact others other later

end Fold

theorem mediaDuration_untimed (untimed : Untimed engine document) :
    mediaDuration engine document streams = streamsDuration engine (level ⊥) streams := by
  obtain ⟨format, number, present, converted, infinite⟩ := untimed
  unfold durationOf at converted
  simp only [mediaDuration, present, converted, Attempt.ofOption, bind, Except.bind, infinite,
    Bool.false_eq_true, if_false]
  rfl

/-- Without a duration of the container the longest stream counts exactly when every required
stream has a duration. -/
theorem mediaDuration_iff (untimed : Untimed engine document)
    (timed : ∃ stream ∈ streams, ∃ duration,
      durationOf engine stream = some (.finite duration)) :
    (∃ longest, mediaDuration engine document streams = .ok (.finite longest) ∧
      Longest engine streams longest) ↔ ∀ stream ∈ streams, Measured engine stream := by
  rw [mediaDuration_untimed untimed]
  constructor
  · rintro ⟨longest, folded, _⟩
    have ordered : streamsDuration engine (level ⊥) streams = .ok (level (longest : ℚ)) := folded
    exact (measured_of_streamsDuration ordered).2
  · intro measured
    obtain ⟨top, folded, _, attained, greatest⟩ := streamsDuration_measured measured ⊥
    obtain ⟨stream, member, duration, found⟩ := timed
    have above : (duration : WithBot ℚ) ≤ top := greatest stream member duration found
    induction top using WithBot.recBotCoe with
    | bot => simp at above
    | coe longest =>
        refine ⟨longest, folded, ?_, ?_⟩
        · rcases attained with bottom | attained
          · cases bottom
          · exact attained
        · intro other member duration' found'
          exact WithBot.coe_le_coe.mp (greatest other member duration' found')

section Samples

/-- A stream with this duration, or with none. -/
def sampleStream (duration : Option String) : Value :=
  .obj (match duration with
    | some duration => [(Text.ofString "duration", .str (Text.ofString duration))]
    | none => [])

/-- A document whose container has no duration. -/
def untimedDocument : Value := .obj [(Text.ofString "format", .obj [])]

theorem untimedDocument_untimed : Untimed sampleEngine untimedDocument :=
  ⟨.obj [], .nan, rfl, rfl, rfl⟩

theorem durationOf_eight : durationOf sampleEngine (sampleStream (some "8")) =
    some (.finite 8) := by
  decide +kernel

theorem durationOf_twelve : durationOf sampleEngine (sampleStream (some "12")) =
    some (.finite 12) := by
  decide +kernel

theorem bothTimed_longest : ∃ longest, mediaDuration sampleEngine untimedDocument
    [sampleStream (some "12"), sampleStream (some "8")] = .ok (.finite longest) ∧
      Longest sampleEngine [sampleStream (some "12"), sampleStream (some "8")] longest := by
  refine (mediaDuration_iff untimedDocument_untimed ⟨_, List.mem_cons_self, 12,
    durationOf_twelve⟩).mpr ?_
  intro stream member
  rw [List.mem_cons, List.mem_singleton] at member
  rcases member with rfl | rfl
  · exact ⟨.finite 12, durationOf_twelve, by decide, by decide⟩
  · exact ⟨.finite 8, durationOf_eight, by decide, by decide⟩

/-- One stream without a duration hides the duration of the other. -/
theorem untimedStream_hides : ¬ ∀ (engine : Engine) (document : Value) (streams : List Value),
    Untimed engine document → (∃ stream ∈ streams, ∃ duration,
      durationOf engine stream = some (.finite duration)) →
    ∃ longest, mediaDuration engine document streams = .ok (.finite longest) ∧
      Longest engine streams longest := by
  intro all
  obtain ⟨longest, folded, _⟩ := all sampleEngine untimedDocument
    [sampleStream (some "8"), sampleStream none] untimedDocument_untimed
    ⟨_, List.mem_cons_self, 8, durationOf_eight⟩
  have hidden : mediaDuration sampleEngine untimedDocument
      [sampleStream (some "8"), sampleStream none] = .ok .nan := by
    rw [mediaDuration_untimed untimedDocument_untimed, streamsDuration]
    have first : ((sampleStream (some "8")).chain "duration").toNumber sampleEngine =
        some (.finite 8) := durationOf_eight
    rw [first]
    rfl
  rw [hidden] at folded
  cases folded

end Samples

end PostsMedia.Validation
