import Mathlib.Tactic.Ring
import Mathlib.Data.Nat.Log

namespace Vints

variable {width value : ℕ}

/-- The bytes of a number, the most significant first. -/
def bigEndian : ℕ → ℕ → List UInt8
  | 0, _ => []
  | width + 1, value => .ofNat (value / 256 ^ width) :: bigEndian width (value % 256 ^ width)

/-- The number that the bytes continue. -/
def continued (start : ℕ) (bytes : List UInt8) : ℕ :=
  bytes.foldl (fun value byte => value * 256 + byte.toNat) start

@[simp] theorem length_bigEndian (width value : ℕ) : (bigEndian width value).length = width := by
  induction width generalizing value with
  | zero => rfl
  | succ width ih => simp [bigEndian, ih]

theorem continued_bigEndian (start : ℕ) (small : value < 256 ^ width) :
    continued start (bigEndian width value) = start * 256 ^ width + value := by
  induction width generalizing start value with
  | zero =>
      have zero : value = 0 := by
        rw [pow_zero] at small
        omega
      simp [continued, bigEndian, zero]
  | succ width ih =>
      have first : value / 256 ^ width < 256 := by
        apply Nat.div_lt_of_lt_mul
        rwa [← pow_succ]
      have tail := ih (start * 256 + value / 256 ^ width)
        (Nat.mod_lt value (Nat.pow_pos (by norm_num)))
      have division := Nat.div_add_mod value (256 ^ width)
      have byte : (UInt8.ofNat (value / 256 ^ width)).toNat = value / 256 ^ width := by
        rw [UInt8.toNat_ofNat', Nat.mod_eq_of_lt first]
      simp only [continued, bigEndian, List.foldl_cons, byte] at tail ⊢
      rw [tail]
      calc (start * 256 + value / 256 ^ width) * 256 ^ width + value % 256 ^ width =
            start * 256 ^ (width + 1) +
              (256 ^ width * (value / 256 ^ width) + value % 256 ^ width) := by ring
        _ = start * 256 ^ (width + 1) + value := by rw [division]

/-- A number of seven bits for each byte, with a marker bit above them. -/
def marked (width value : ℕ) : ℕ := 2 ^ (7 * width) + value

/-- The bytes of a marked number. The marker's place in the first byte tells their count. -/
def vint (width value : ℕ) : List UInt8 := bigEndian width (marked width value)

@[simp] theorem length_vint (width value : ℕ) : (vint width value).length = width :=
  length_bigEndian _ _

/-- The bits above the trailing bytes. -/
theorem marked_div (short : width < 8) :
    marked (width + 1) value / 256 ^ width = 2 ^ (7 - width) + value / 256 ^ width := by
  have shift : 2 ^ (7 * (width + 1)) = 2 ^ (7 - width) * 256 ^ width := by
    rw [show 256 = 2 ^ 8 by norm_num, ← pow_mul, ← pow_add]
    congr 1
    omega
  rw [marked, shift, Nat.add_comm, Nat.add_mul_div_right _ _ (Nat.pow_pos (by norm_num)),
    Nat.add_comm]

theorem marked_mod (short : width < 8) :
    marked (width + 1) value % 256 ^ width = value % 256 ^ width := by
  have shift : 2 ^ (7 * (width + 1)) = 256 ^ width * 2 ^ (7 - width) := by
    rw [show 256 = 2 ^ 8 by norm_num, ← pow_mul, ← pow_add]
    congr 1
    omega
  rw [marked, shift, Nat.mul_add_mod]

/-- The bits of the first byte below the marker. -/
theorem high_lt (short : width < 8) (small : value < 2 ^ (7 * (width + 1))) :
    value / 256 ^ width < 2 ^ (7 - width) := by
  apply Nat.div_lt_of_lt_mul
  rw [show 256 = 2 ^ 8 by norm_num, ← pow_mul, ← pow_add, show 8 * width + (7 - width) =
    7 * (width + 1) by omega]
  exact small

/-- The first byte of a marked number. -/
def lead (width value : ℕ) : UInt8 := .ofNat (2 ^ (7 - width) + value / 256 ^ width)

theorem vint_succ (short : width < 8) :
    vint (width + 1) value = lead width value :: bigEndian width (value % 256 ^ width) := by
  rw [vint, bigEndian, marked_div short, marked_mod short, lead]

theorem toNat_lead (short : width < 8) (small : value < 2 ^ (7 * (width + 1))) :
    (lead width value).toNat = 2 ^ (7 - width) + value / 256 ^ width := by
  have high := high_lt short small
  have power : 2 ^ (7 - width) ≤ 2 ^ 7 := Nat.pow_le_pow_right (by norm_num) (by omega)
  rw [lead, UInt8.toNat_ofNat', Nat.mod_eq_of_lt (by omega)]

/-- The marker is the highest bit of the first byte. -/
theorem log2_lead (short : width < 8) (small : value < 2 ^ (7 * (width + 1))) :
    (lead width value).toNat.log2 = 7 - width := by
  have high := high_lt short small
  have power : 0 < 2 ^ (7 - width) := Nat.pow_pos (by norm_num)
  rw [toNat_lead short small]
  generalize value / 256 ^ width = bits at high ⊢
  rw [Nat.log2_eq_iff (by omega), pow_succ]
  omega

/-- The first byte and the trailing ones make up the number, with the marker or without. -/
theorem continued_lead (short : width < 8) (small : value < 2 ^ (7 * (width + 1))) :
    continued (lead width value).toNat (bigEndian width (value % 256 ^ width)) =
      marked (width + 1) value ∧
    continued ((lead width value).toNat % 2 ^ (7 - width))
      (bigEndian width (value % 256 ^ width)) = value := by
  have power : 0 < 256 ^ width := Nat.pow_pos (by norm_num)
  have division := Nat.div_add_mod value (256 ^ width)
  have whole := Nat.div_add_mod (marked (width + 1) value) (256 ^ width)
  rw [marked_div short, marked_mod short] at whole
  rw [continued_bigEndian _ (Nat.mod_lt _ power), continued_bigEndian _ (Nat.mod_lt _ power),
    toNat_lead short small, Nat.add_mod_left, Nat.mod_eq_of_lt (high_lt short small),
    Nat.mul_comm _ (256 ^ width), Nat.mul_comm _ (256 ^ width)]
  exact ⟨whole, division⟩

end Vints
