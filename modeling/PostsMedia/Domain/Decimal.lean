import Mathlib.Data.Nat.Digits.Lemmas
import PostsMedia.Domain.Value

namespace PostsMedia

/-- The integers up to here have a double of their own. -/
def maxSafeInteger : ℕ := 2 ^ 53 - 1

def Number.isSafeInteger : Number → Bool
  | .finite value => value.isInt && decide (|value| ≤ maxSafeInteger)
  | _ => false

namespace Text

def digitUnit (d : ℕ) : CodeUnit := .ofNat (0x30 + d)

/-- The text of a number in base 10. -/
def decimal (n : ℕ) : Text :=
  if n = 0 then [0x30] else (Nat.digits 10 n).reverse.map digitUnit

/-- The texts of `/^(?:0|[1-9][0-9]*)$/`. -/
def isDecimal : Text → Bool
  | [] => false
  | head :: rest => (head == 0x30 && rest.isEmpty) || (head != 0x30 && (head :: rest).all isDigit)

variable {d n : ℕ} {unit : CodeUnit} {text : Text}

theorem toNat_digitUnit (small : d < 10) : (digitUnit d).toNat = 0x30 + d := by
  simp only [digitUnit, UInt16.toNat_ofNat']
  omega

theorem digit_digitUnit (small : d < 10) : digit 10 (digitUnit d) = some d := by
  have value := toNat_digitUnit small
  have above : (0x30 : CodeUnit) ≤ digitUnit d := by
    rw [UInt16.le_iff_toNat_le, value]
    exact Nat.le_add_right ..
  have below : digitUnit d ≤ 0x39 := by
    rw [UInt16.le_iff_toNat_le, value]
    change 0x30 + d ≤ 0x39
    omega
  simp [digit, above, below, value, small]

/-- A letter stands for ten at least. -/
theorem eq_digitUnit_of_digit (value : digit 10 unit = some d) : d < 10 ∧ unit = digitUnit d := by
  simp only [digit, Bool.and_eq_true, decide_eq_true_eq, UInt16.le_iff_toNat_le,
    UInt16.reduceToNat] at value
  split_ifs at value with within
  · cases value
    refine ⟨by omega, UInt16.toNat_inj.mp ?_⟩
    rw [toNat_digitUnit (by omega)]
    omega
  all_goals omega

theorem isDigit_iff : isDigit unit = true ↔ ∃ d, d < 10 ∧ unit = digitUnit d := by
  constructor
  · intro isDigit
    obtain ⟨d, value⟩ := Option.isSome_iff_exists.mp isDigit
    exact ⟨d, eq_digitUnit_of_digit value⟩
  · rintro ⟨d, small, rfl⟩
    simp [isDigit, digit_digitUnit small]

theorem digitUnit_inj {e : ℕ} (small : d < 10) (small' : e < 10)
    (same : digitUnit d = digitUnit e) : d = e := by
  have values := congrArg UInt16.toNat same
  rw [toNat_digitUnit small, toNat_digitUnit small'] at values
  omega

/-- A text of digits is the text of its values. -/
theorem exists_digits (digits : ∀ unit ∈ text, isDigit unit = true) :
    ∃ values : List ℕ, (∀ d ∈ values, d < 10) ∧ text = values.map digitUnit := by
  induction text with
  | nil => exact ⟨[], by simp, rfl⟩
  | cons head rest ih =>
      obtain ⟨d, small, rfl⟩ := isDigit_iff.mp (digits head List.mem_cons_self)
      obtain ⟨values, smalls, rfl⟩ := ih fun unit member =>
        digits unit (List.mem_cons_of_mem _ member)
      exact ⟨d :: values, by simpa [small] using smalls, rfl⟩

theorem digitsValue_map (values : List ℕ) (smalls : ∀ d ∈ values, d < 10) :
    digitsValue 10 (values.map digitUnit) = some (Nat.ofDigits 10 values.reverse) := by
  induction values using List.reverseRecOn with
  | nil => rfl
  | append_singleton values d ih =>
      have earlier := ih fun e member => smalls e (List.mem_append_left _ member)
      have small : d < 10 := smalls d (by simp)
      simp only [digitsValue] at earlier
      simp only [digitsValue, List.map_append, List.foldlM_append, earlier]
      simp [digit_digitUnit small, Nat.ofDigits_cons, Nat.add_comm, Nat.mul_comm]

theorem digits_small (n : ℕ) : ∀ d ∈ (Nat.digits 10 n).reverse, d < 10 := fun _ member =>
  Nat.digits_lt_base (by omega) (List.mem_reverse.mp member)

@[simp] theorem digitsValue_decimal (n : ℕ) : digitsValue 10 (decimal n) = some n := by
  unfold decimal
  split
  · rename_i zero
    rw [zero]
    rfl
  · rw [digitsValue_map _ (digits_small n), List.reverse_reverse, Nat.ofDigits_digits]

/-- The text of a number other than zero begins with another digit than zero. -/
theorem decimal_eq_cons (positive : n ≠ 0) : ∃ d rest, d < 10 ∧ d ≠ 0 ∧
    (∀ unit ∈ rest, isDigit unit = true) ∧ decimal n = digitUnit d :: rest := by
  have some : Nat.digits 10 n ≠ [] := Nat.digits_ne_nil_iff_ne_zero.mpr positive
  have front : (Nat.digits 10 n).reverse =
      (Nat.digits 10 n).getLast some :: (Nat.digits 10 n).dropLast.reverse := by
    conv_lhs => rw [← List.dropLast_append_getLast some]
    rw [List.reverse_append, List.reverse_singleton, List.singleton_append]
  refine ⟨(Nat.digits 10 n).getLast some, (Nat.digits 10 n).dropLast.reverse.map digitUnit,
    Nat.digits_lt_base (by omega) (List.getLast_mem some), Nat.getLast_digit_ne_zero 10 positive,
    ?_, ?_⟩
  · intro unit member
    obtain ⟨d, inside, rfl⟩ := List.mem_map.mp member
    exact isDigit_iff.mpr ⟨d, Nat.digits_lt_base (by omega)
      (List.mem_of_mem_dropLast (List.mem_reverse.mp inside)), rfl⟩
  · rw [decimal, if_neg positive, front, List.map_cons]

theorem isDigit_digitUnit (small : d < 10) : isDigit (digitUnit d) = true :=
  isDigit_iff.mpr ⟨d, small, rfl⟩

/-- The numerals are the texts of the numbers. -/
theorem isDecimal_iff : isDecimal text = true ↔ ∃ n, text = decimal n := by
  constructor
  · intro numeral
    cases text with
    | nil => cases numeral
    | cons head rest =>
        simp only [isDecimal, Bool.or_eq_true, Bool.and_eq_true, beq_iff_eq, bne_iff_ne,
          List.isEmpty_iff] at numeral
        rcases numeral with ⟨rfl, rfl⟩ | ⟨nonzero, digits⟩
        · exact ⟨0, rfl⟩
        · obtain ⟨values, smalls, shape⟩ := exists_digits (List.all_eq_true.mp digits)
          cases values with
          | nil => cases shape
          | cons d values =>
              obtain ⟨rfl, -⟩ := List.cons.inj shape
              have lead : d ≠ 0 := by
                rintro rfl
                exact nonzero rfl
              have kept : Nat.digits 10 (Nat.ofDigits 10 (d :: values).reverse) =
                  (d :: values).reverse := by
                refine Nat.digits_ofDigits 10 (by omega) _ ?_ ?_
                · intro e member
                  exact smalls e (List.mem_reverse.mp member)
                · intro some
                  simpa using lead
              have positive : Nat.ofDigits 10 (d :: values).reverse ≠ 0 := by
                intro zero
                rw [zero, Nat.digits_zero] at kept
                exact absurd kept.symm (by simp)
              refine ⟨Nat.ofDigits 10 (d :: values).reverse, ?_⟩
              rw [decimal, if_neg positive, kept, List.reverse_reverse, shape]
  · rintro ⟨n, rfl⟩
    by_cases positive : n = 0
    · rw [positive]
      rfl
    · obtain ⟨d, rest, small, nonzero, digits, shape⟩ := decimal_eq_cons positive
      have head : digitUnit d ≠ 0x30 := fun same =>
        nonzero (digitUnit_inj small (by omega) same)
      rw [shape]
      simp [isDecimal, head, isDigit_digitUnit small, List.all_eq_true.mpr digits]

theorem all_isDigit_decimal (n : ℕ) : ∀ unit ∈ decimal n, isDigit unit = true := by
  intro unit member
  by_cases positive : n = 0
  · rw [positive] at member
    cases List.mem_singleton.mp member
    rfl
  · obtain ⟨d, rest, small, -, digits, shape⟩ := decimal_eq_cons positive
    rw [shape] at member
    rcases List.mem_cons.mp member with rfl | member
    · exact isDigit_digitUnit small
    · exact digits unit member

theorem decimal_ne_nil (n : ℕ) : decimal n ≠ [] := by
  by_cases positive : n = 0
  · rw [positive]
    simp [decimal]
  · obtain ⟨d, rest, -, -, -, shape⟩ := decimal_eq_cons positive
    simp [shape]

theorem not_isWhiteSpace_of_isDigit (digit : isDigit unit = true) : isWhiteSpace unit = false := by
  obtain ⟨d, small, rfl⟩ := isDigit_iff.mp digit
  interval_cases d <;> rfl

theorem trim_eq_self (plain : ∀ unit ∈ text, isWhiteSpace unit = false) : trim text = text := by
  have front : text.dropWhile isWhiteSpace = text := by
    cases text with
    | nil => rfl
    | cons head rest => simp [plain head List.mem_cons_self]
  rw [trim, front, List.rdropWhile_eq_self_iff]
  intro some
  simp [plain _ (List.getLast_mem some)]

@[simp] theorem trim_decimal (n : ℕ) : trim (decimal n) = decimal n :=
  trim_eq_self fun unit member => not_isWhiteSpace_of_isDigit (all_isDigit_decimal n unit member)

theorem radixLiteral_decimal (n : ℕ) : radixLiteral (decimal n) = none := by
  by_cases positive : n = 0
  · rw [positive]
    rfl
  · obtain ⟨d, rest, small, nonzero, -, shape⟩ := decimal_eq_cons positive
    rw [shape]
    interval_cases d <;> first | rfl | exact absurd rfl nonzero

theorem signed_decimal (n : ℕ) : signed (decimal n) = (false, decimal n) := by
  cases shape : decimal n with
  | nil => rfl
  | cons head rest =>
      have digit : isDigit head = true :=
        all_isDigit_decimal n head (shape ▸ List.mem_cons_self)
      obtain ⟨d, small, rfl⟩ := isDigit_iff.mp digit
      interval_cases d <;> rfl

theorem decimal_ne_infinity (n : ℕ) : decimal n ≠ ofString "Infinity" := by
  intro same
  have digit := all_isDigit_decimal n 0x49 (same ▸ by decide)
  cases digit

@[simp] theorem decimalLiteral_decimal (n : ℕ) : decimalLiteral (decimal n) = some (n : ℚ) := by
  have whole : (decimal n).span isDigit = (decimal n, []) := by
    rw [List.span_eq_takeWhile_dropWhile, List.takeWhile_eq_self_iff.mpr (all_isDigit_decimal n),
      List.dropWhile_eq_nil_iff.mpr (all_isDigit_decimal n)]
  simp only [decimalLiteral, whole]
  simp [decimal_ne_nil, exponent]

end Text

/-- A numeral is read as the double next to its value. -/
theorem stringToNumber_decimal (n : ℕ) : stringToNumber (Text.decimal n) = .ofRat n := by
  simp only [stringToNumber, Text.trim_decimal, if_neg (Text.decimal_ne_nil n),
    Text.radixLiteral_decimal, Text.signed_decimal, if_neg (Text.decimal_ne_infinity n),
    Text.decimalLiteral_decimal]
  rfl

section Doubles

open Doubles

variable {n : ℕ}

theorem ofRat_natCast (n : ℕ) : Number.ofRat n =
    if 2 ^ 1024 ≤ |toDouble n| then .infinity false else .finite (toDouble n) := by
  have size : (2 : ℚ) ^ (-1074 : ℤ) ≤ quantum (n : ℚ) := by
    have log : 0 ≤ Int.log 2 |(n : ℚ)| := by
      rw [Nat.abs_cast, Int.log_natCast]
      exact Int.natCast_nonneg _
    exact zpow_le_zpow_right₀ (by norm_num) (by omega)
  have above : ¬ (n : ℚ) < 0 := not_lt.mpr (Nat.cast_nonneg n)
  simp only [Number.ofRat, max_eq_left size, above]
  rfl

/-- Up to the safe integers a number is read as it is. -/
theorem ofRat_within (small : n ≤ maxSafeInteger) : Number.ofRat n = .finite n := by
  have bound : n ≤ 2 ^ 53 := Nat.le_trans small (by decide)
  have same : toDouble n = n := by
    rcases Nat.eq_zero_or_pos n with rfl | positive
    · exact_mod_cast toDouble_zero
    · exact toDouble_natCast positive bound
  have finite : ¬ (2 : ℚ) ^ 1024 ≤ |(n : ℚ)| := by
    rw [Nat.abs_cast, not_le]
    calc (n : ℚ) ≤ (2 ^ 53 : ℕ) := by exact_mod_cast bound
      _ = 2 ^ 53 := by norm_cast
      _ < 2 ^ 1024 := pow_lt_pow_right₀ (by norm_num) (by norm_num)
  rw [ofRat_natCast, same, if_neg finite]

/-- Beyond them it is read as another number beyond them, or as infinity. -/
theorem ofRat_beyond (large : maxSafeInteger < n) : (Number.ofRat n).isSafeInteger = false := by
  rw [ofRat_natCast]
  split
  · rfl
  · have beyond : ((2 ^ 53 : ℕ) : ℚ) ≤ toDouble n := by
      rw [← toDouble_natCast (by norm_num) le_rfl]
      exact toDouble_mono (by norm_num) (by exact_mod_cast large)
    have outside : ¬ |toDouble n| ≤ (maxSafeInteger : ℚ) := by
      rw [not_le]
      calc (maxSafeInteger : ℚ) < (2 ^ 53 : ℕ) := by exact_mod_cast (by decide)
        _ ≤ toDouble n := beyond
        _ ≤ |toDouble n| := le_abs_self _
    simp [Number.isSafeInteger, outside]

@[simp] theorem isSafeInteger_natCast (small : n ≤ maxSafeInteger) :
    (Number.finite n).isSafeInteger = true := by
  simp [Number.isSafeInteger, Rat.isInt, small]

end Doubles

end PostsMedia
