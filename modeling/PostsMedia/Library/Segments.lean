import Mathlib.Data.List.Basic

namespace Segments

/-- The part of a text before its first separator determines itself and the rest. -/
theorem split_inj {α : Type*} {separator : α} {first second rest rest' : List α}
    (plain : separator ∉ first) (plain' : separator ∉ second)
    (same : first ++ separator :: rest = second ++ separator :: rest') :
    first = second ∧ rest = rest' := by
  induction first generalizing second with
  | nil =>
      cases second with
      | nil => exact ⟨rfl, (List.cons.inj same).2⟩
      | cons head tail =>
          have met : separator = head := (List.cons.inj same).1
          exact absurd (met ▸ List.mem_cons_self) plain'
  | cons head tail ih =>
      cases second with
      | nil =>
          have met : head = separator := (List.cons.inj same).1
          exact absurd (met ▸ List.mem_cons_self) plain
      | cons head' tail' =>
          obtain ⟨heads, tails⟩ := List.cons.inj same
          have left : separator ∉ tail := fun member => plain (List.mem_cons_of_mem _ member)
          have right : separator ∉ tail' := fun member => plain' (List.mem_cons_of_mem _ member)
          obtain ⟨firsts, rests⟩ := ih left right tails
          exact ⟨by rw [heads, firsts], rests⟩

/-- A decimal number contains no other character than digits. -/
theorem plain_toString {separator : Char} (special : separator.isDigit = false) (n : Nat) :
    separator ∉ (toString n).toList := by
  intro member
  rw [Nat.toString_eq_ofList_toDigits, String.toList_ofList] at member
  have digit := Nat.isDigit_of_mem_toDigits (by omega) (by omega) member
  simp [special] at digit

/-- A decimal number determines its value. -/
theorem toString_inj {n m : Nat} (same : (toString n).toList = (toString m).toList) : n = m := by
  simp only [Nat.toString_eq_ofList_toDigits, String.toList_ofList] at same
  rw [← Nat.ofDigitChars_ten_toDigits (n := n), same, Nat.ofDigitChars_ten_toDigits]

end Segments
