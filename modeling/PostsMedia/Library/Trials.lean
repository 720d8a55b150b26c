import Mathlib.Data.List.Nodup

namespace Trials

variable {α : Type}

/-- A coarse and a fine test for one result. -/
structure Trial (α : Type) where
  coarse : Bool
  fine : Bool
  result : α

/-- The result of the first trial that passes. -/
def firstOf (test : Trial α → Bool) : List (Trial α) → α → α
  | [], otherwise => otherwise
  | trial :: trials, otherwise =>
      if test trial then trial.result else firstOf test trials otherwise

variable {trials : List (Trial α)} {otherwise : α}

theorem firstOf_mem (test : Trial α → Bool) (trials : List (Trial α)) (otherwise : α) :
    firstOf test trials otherwise = otherwise ∨
      firstOf test trials otherwise ∈ trials.map Trial.result := by
  induction trials with
  | nil => exact Or.inl rfl
  | cons trial trials ih =>
      rw [firstOf, List.map_cons]
      split
      · exact Or.inr List.mem_cons_self
      · exact ih.imp_right (List.mem_cons_of_mem _)

/-- The coarse tests find what the fine tests find exactly when the first that passes coarsely
passes finely. -/
theorem firstOf_eq_iff (finer : ∀ trial ∈ trials, trial.fine → trial.coarse)
    (distinct : (trials.map Trial.result).Nodup) (apart : otherwise ∉ trials.map Trial.result) :
    firstOf Trial.coarse trials otherwise = firstOf Trial.fine trials otherwise ↔
      ∀ trial, trials.find? Trial.coarse = some trial → trial.fine := by
  induction trials with
  | nil => simp [firstOf]
  | cons trial trials ih =>
      rw [List.map_cons, List.nodup_cons] at distinct
      rw [List.map_cons, List.mem_cons, not_or] at apart
      have later := ih (fun other member => finer other (List.mem_cons_of_mem _ member))
        distinct.2 apart.2
      rw [firstOf, firstOf]
      by_cases coarse : trial.coarse
      · rw [if_pos coarse, List.find?_cons_of_pos coarse]
        by_cases fine : trial.fine
        · simp [fine]
        · have different : trial.result ≠ firstOf Trial.fine trials otherwise := by
            intro same
            rcases firstOf_mem Trial.fine trials otherwise with default | found
            · exact apart.1 (default.symm.trans same.symm)
            · exact distinct.1 (same ▸ found)
          simp [fine, different]
      · have rough : ¬ trial.fine := fun fine => coarse (finer trial List.mem_cons_self fine)
        rw [if_neg coarse, if_neg rough, List.find?_cons_of_neg coarse]
        exact later

end Trials
