import Mathlib.Logic.Function.Basic
import Mathlib.Order.Lattice
import PostsMedia.Library.Machine

namespace Lease

variable {τ θ : Type*}

/-- The abstract lease records its holder, every term that it ever granted, and who gave it back. -/
structure State (τ θ : Type*) where
  now : θ
  holder : Option (τ × θ)
  terms : τ → Option θ
  released : τ → Bool
  closed : Bool

/-- A lease is granted, extended, given back or closed for good. -/
inductive Event (τ θ : Type*)
  | wait (until' : θ)
  | grant (token : τ) (expiry : θ)
  | renew (token : τ) (expiry : θ)
  | release (token : τ)
  | close (token : τ)

/-- A lease is free when nobody holds it or when its term is over. -/
def State.free [LE θ] (s : State τ θ) : Prop :=
  ∀ token expiry, s.holder = some (token, expiry) → expiry ≤ s.now

/-- The named token holds the lease. -/
def State.heldBy (s : State τ θ) (token : τ) : Prop := ∃ expiry, s.holder = some (token, expiry)

instance [LinearOrder θ] (s : State τ θ) : Decidable s.free :=
  match held : s.holder with
  | none => .isTrue (by simp [State.free, held])
  | some (token, expiry) =>
      decidable_of_iff (expiry ≤ s.now) (by simp [State.free, held])

instance [DecidableEq τ] (s : State τ θ) (token : τ) : Decidable (s.heldBy token) :=
  match held : s.holder with
  | none => .isFalse (by simp [State.heldBy, held])
  | some (other, expiry) =>
      decidable_of_iff (other = token) (by simp [State.heldBy, held])

variable [DecidableEq τ] [LinearOrder θ]

/-- A grant needs a fresh token and a free lease; only the holder extends or returns it. -/
def step (s : State τ θ) : Event τ θ → Option (State τ θ)
  | .wait later => if s.now ≤ later then some { s with now := later } else none
  | .grant token expiry =>
      if s.closed = false ∧ s.terms token = none ∧ s.free then
        some { s with
          holder := some (token, expiry)
          terms := Function.update s.terms token (some expiry) }
      else none
  | .renew token expiry =>
      if s.heldBy token then
        some { s with
          holder := some (token, expiry)
          terms := Function.update s.terms token (some expiry) }
      else none
  | .release token =>
      if s.heldBy token then
        some { s with holder := none, released := Function.update s.released token true }
      else none
  | .close token =>
      some { s with
        holder := none
        closed := true
        released := Function.update s.released token true }

/-- The lease starts without a holder and without a history. -/
def machine : Machine (State τ θ) (Event τ θ) where
  initial s := s.holder = none ∧ s.closed = false ∧ (∀ token, s.terms token = none) ∧
    ∀ token, s.released token = false
  step := step

/-- A running term belongs to the holder, and the holder has exactly its recorded term. -/
structure Exclusive (s : State τ θ) : Prop where
  current : ∀ token expiry, s.terms token = some expiry → s.released token = false →
    s.now < expiry → s.holder = some (token, expiry) ∨ s.closed = true
  recorded : ∀ token expiry, s.holder = some (token, expiry) → s.terms token = some expiry

/-- A new term for one token keeps the exclusion when nobody else has a running term. -/
theorem Exclusive.assign {s : State τ θ} (exclusive : Exclusive s) {token : τ} {expiry : θ}
    (alone : ∀ other term, other ≠ token → s.holder = some (other, term) → term ≤ s.now) :
    Exclusive { s with
      holder := some (token, expiry)
      terms := Function.update s.terms token (some expiry) } where
  current other term recorded unreleased running := by
    dsimp only at recorded unreleased running ⊢
    by_cases same : other = token
    · subst same
      simp only [Function.update_self, Option.some.injEq] at recorded
      exact .inl (by rw [recorded])
    · rw [Function.update_of_ne same] at recorded
      rcases exclusive.current other term recorded unreleased running with held | closed
      · exact absurd (alone other term same held) (not_le_of_gt running)
      · exact .inr closed
  recorded other term held := by
    simp only [Option.some.injEq, Prod.mk.injEq] at held
    obtain ⟨rfl, rfl⟩ := held
    exact Function.update_self ..

/-- The term of a token that gives the lease back needs no holder. -/
theorem Exclusive.give {s : State τ θ} (exclusive : Exclusive s) {token : τ}
    (held : s.heldBy token) :
    Exclusive { s with holder := none, released := Function.update s.released token true } where
  current other term recorded unreleased running := by
    dsimp only at recorded unreleased running ⊢
    obtain ⟨previous, held⟩ := held
    by_cases same : other = token
    · subst same
      simp at unreleased
    · rw [Function.update_of_ne same] at unreleased
      rcases exclusive.current other term recorded unreleased running with current | closed
      · rw [held] at current
        simp only [Option.some.injEq, Prod.mk.injEq] at current
        exact absurd current.1.symm same
      · exact .inr closed
  recorded other term held := by cases held

/-- Every step keeps the exclusion of running terms. -/
theorem exclusive_step (s : State τ θ) (event : Event τ θ) (t : State τ θ)
    (taken : step s event = some t) (exclusive : Exclusive s) : Exclusive t := by
  cases event with
  | wait later =>
      simp only [step] at taken
      split at taken
      · rename_i forward
        cases taken
        exact ⟨fun token expiry term open' running =>
          exclusive.current token expiry term open' (lt_of_le_of_lt forward running),
          exclusive.recorded⟩
      · cases taken
  | grant token expiry =>
      simp only [step] at taken
      split at taken
      · rename_i allowed
        cases taken
        apply exclusive.assign
        intro other term _ held
        exact allowed.2.2 other term held
      · cases taken
  | renew token expiry =>
      simp only [step] at taken
      split at taken
      · rename_i held
        obtain ⟨previous, held⟩ := held
        cases taken
        apply exclusive.assign
        intro other term different current
        rw [held] at current
        simp only [Option.some.injEq, Prod.mk.injEq] at current
        exact absurd current.1.symm different
      · cases taken
  | release token =>
      simp only [step] at taken
      split at taken
      · rename_i held
        cases taken
        exact exclusive.give held
      · cases taken
  | close token =>
      simp only [step] at taken
      cases taken
      exact ⟨fun _ _ _ _ _ => .inr rfl, by simp⟩

/-- Running terms exclude each other in every reachable state. -/
theorem exclusive_of_reachable {guard : State τ θ → Event τ θ → Prop} {s : State τ θ}
    (reached : machine.Reachable guard s) : Exclusive s := by
  refine reached.invariant ?_ fun s event t _ => exclusive_step s event t
  rintro s ⟨unheld, _, fresh, _⟩
  exact ⟨by simp [fresh], by simp [unheld]⟩

/-- A grant succeeds only after every other unreturned term is over. -/
theorem grant_excludes {s t : State τ θ} {token other : τ} {expiry term : θ}
    (exclusive : Exclusive s) (granted : step s (.grant token expiry) = some t)
    (recorded : s.terms other = some term) (unreleased : s.released other = false) :
    term ≤ s.now := by
  simp only [step] at granted
  split at granted
  · rename_i allowed
    obtain ⟨opened, _, free⟩ := allowed
    by_contra running
    have current := exclusive.current other term recorded unreleased (lt_of_not_ge running)
    rcases current with held | closed
    · exact running (free other term held)
    · simp [opened] at closed
  · cases granted

/-- A token that lost the lease after it was granted never holds it again. -/
structure Lost (token : τ) (s : State τ θ) : Prop where
  granted : s.terms token ≠ none
  displaced : ¬ s.heldBy token

omit [LinearOrder θ] in
/-- A new term for another token leaves the lease lost. -/
theorem Lost.assign {token other : τ} {s : State τ θ} (lost : Lost token s)
    (different : token ≠ other) (expiry : θ) :
    Lost token { s with
      holder := some (other, expiry)
      terms := Function.update s.terms other (some expiry) } where
  granted := by simpa [Function.update_of_ne different] using lost.granted
  displaced := by simp [State.heldBy, Ne.symm different]

/-- No step gives the lease back to a token that lost it. -/
theorem lost_step (token : τ) (s : State τ θ) (event : Event τ θ) (t : State τ θ)
    (taken : step s event = some t) (lost : Lost token s) : Lost token t := by
  cases event with
  | wait later =>
      simp only [step] at taken
      split at taken <;> cases taken
      exact ⟨lost.granted, lost.displaced⟩
  | grant other expiry =>
      simp only [step] at taken
      split at taken
      · rename_i allowed
        have different : token ≠ other := by
          rintro rfl
          exact lost.granted allowed.2.1
        cases taken
        exact lost.assign different expiry
      · cases taken
  | renew other expiry =>
      simp only [step] at taken
      split at taken
      · rename_i held
        have different : token ≠ other := by
          rintro rfl
          exact lost.displaced held
        cases taken
        exact lost.assign different expiry
      · cases taken
  | release other =>
      simp only [step] at taken
      split at taken <;> cases taken
      exact ⟨lost.granted, by simp [State.heldBy]⟩
  | close other =>
      simp only [step] at taken
      cases taken
      exact ⟨lost.granted, by simp [State.heldBy]⟩

/-- A lost lease stays lost along every path. -/
theorem lost_path {guard : State τ θ → Event τ θ → Prop} {token : τ} {s t : State τ θ}
    (path : machine.Path guard s t) (lost : Lost token s) : Lost token t :=
  path.invariant (fun s event t _ => lost_step token s event t) lost

end Lease
