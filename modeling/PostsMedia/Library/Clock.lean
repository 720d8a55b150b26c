import PostsMedia.Library.Machine
import Mathlib.Data.Nat.Basic

/-- How the clock of a machine is set, and the deadlines of its armed timers under the events that
call them back. -/
structure Clock (σ ε : Type*) where
  set : σ → ℕ → σ
  deadline : σ → ε → Option ℕ

namespace Clock

variable {σ ε : Type*}

/-- No timer that could have called back at its deadline is later than the lag at this time. -/
def Punctual (clock : Clock σ ε) (m : Machine σ ε) (lag : ℕ) (s : σ) (later : ℕ) : Prop :=
  ∀ event deadline, clock.deadline s event = some deadline →
    (m.step (clock.set s deadline) event).isSome = true → later ≤ deadline + lag

end Clock
