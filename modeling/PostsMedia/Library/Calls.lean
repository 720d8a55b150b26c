import Mathlib.Logic.Basic

/-- A program that calls others may throw. It records its calls, the latest one first. -/
def Calls (κ ε α : Type) := List κ → Except ε α × List κ

namespace Calls

variable {κ ε α β : Type}

instance : Monad (Calls κ ε) where
  pure value := fun calls => (.ok value, calls)
  bind program next := fun calls =>
    match program calls with
    | (.ok value, later) => next value later
    | (.error error, later) => (.error error, later)

/-- A throw. -/
def raise (error : ε) : Calls κ ε α := fun calls => (.error error, calls)

/-- A call whose answer may depend on all calls before it. -/
def invoke (call : κ) (answer : List κ → Except ε α) : Calls κ ε α :=
  fun calls => (answer calls, call :: calls)

theorem bind_ok {program : Calls κ ε α} {next : α → Calls κ ε β} {calls later : List κ} {value : α}
    (returned : program calls = (.ok value, later)) :
    (program >>= next) calls = next value later := by
  simp only [Bind.bind, returned]

/-- A loop that collects its results. A throw ends it. -/
def forEach (body : α → Calls κ ε β) : List α → Calls κ ε (List β)
  | [] => pure []
  | item :: items => do
      let first ← body item
      let rest ← forEach body items
      pure (first :: rest)

/-- A value with its postcondition or an error with the exceptional one. -/
def Ends (after : α → List κ → Prop) (failing : ε → List κ → Prop) :
    Except ε α × List κ → Prop
  | (.ok value, later) => after value later
  | (.error error, later) => failing error later

/-- From calls that satisfy the precondition the program ends well. -/
def Ensures (before : List κ → Prop) (program : Calls κ ε α) (after : α → List κ → Prop)
    (failing : ε → List κ → Prop) : Prop :=
  ∀ calls, before calls → Ends after failing (program calls)

section Rules

variable {before before' : List κ → Prop} {after after' : α → List κ → Prop}
  {failing : ε → List κ → Prop} {program : Calls κ ε α} {next : α → Calls κ ε β}
  {final : β → List κ → Prop}

theorem Ensures.pure (value : α) :
    Ensures (after value) (Pure.pure value : Calls κ ε α) after failing :=
  fun _ holds => holds

theorem Ensures.raise (error : ε) :
    Ensures (failing error) (Calls.raise error : Calls κ ε α) after failing :=
  fun _ holds => holds

theorem Ensures.bind (first : Ensures before program after failing)
    (rest : ∀ value, Ensures (after value) (next value) final failing) :
    Ensures before (program >>= next) final failing := by
  intro calls holds
  have done := first calls holds
  simp only [Bind.bind]
  generalize program calls = outcome at done ⊢
  obtain ⟨result, later⟩ := outcome
  cases result with
  | ok value => exact rest value later done
  | error error => exact done

theorem Ensures.invoke {call : κ} {answer : List κ → Except ε α}
    (returns : ∀ calls value, before calls → answer calls = .ok value →
      after value (call :: calls))
    (throws : ∀ calls error, before calls → answer calls = .error error →
      failing error (call :: calls)) :
    Ensures before (Calls.invoke call answer) after failing := by
  intro calls holds
  simp only [Calls.invoke]
  cases answered : answer calls with
  | ok value => exact returns calls value holds answered
  | error error => exact throws calls error holds answered

theorem Ensures.weaken (valid : Ensures before program after failing)
    (stronger : ∀ calls, before' calls → before calls)
    (weaker : ∀ value calls, after value calls → after' value calls) :
    Ensures before' program after' failing := by
  intro calls holds
  have done := valid calls (stronger calls holds)
  generalize program calls = outcome at done ⊢
  obtain ⟨result, later⟩ := outcome
  cases result with
  | ok value => exact weaker value later done
  | error error => exact done

/-- A fact that does not depend on the calls may be assumed. -/
theorem Ensures.assuming {fact : Prop} (valid : fact → Ensures before program after failing) :
    Ensures (fun calls => fact ∧ before calls) program after failing :=
  fun calls holds => valid holds.1 calls holds.2

/-- A loop keeps its invariant from item to item. -/
theorem Ensures.forEach {body : α → Calls κ ε β} {items : List α}
    (invariant : List α → List β → List κ → Prop)
    (keeps : ∀ done item rest results, items = done ++ item :: rest →
      Ensures (invariant done results) (body item)
        (fun result => invariant (done ++ [item]) (results ++ [result])) failing) :
    Ensures (invariant [] []) (Calls.forEach body items) (invariant items) failing := by
  suffices loop : ∀ done rest results, items = done ++ rest →
      Ensures (invariant done results) (Calls.forEach body rest)
        (fun later => invariant items (results ++ later)) failing from loop [] items [] rfl
  intro done rest results split
  induction rest generalizing done results with
  | nil =>
      rw [List.append_nil] at split
      intro calls holds
      rw [← List.append_nil results, ← split] at holds
      exact holds
  | cons item rest ih =>
      apply (keeps done item rest results split).bind
      intro result
      apply (ih (done ++ [item]) (results ++ [result]) (by simp [split])).bind
      intro later
      refine (Ensures.pure _).weaken (fun calls holds => ?_) fun _ _ ended => ended
      rw [List.append_assoc] at holds
      exact holds

end Rules

end Calls
