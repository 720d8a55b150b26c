import Mathlib.Logic.Basic

/-- A machine has its initial states and one partial step for each event. -/
structure Machine (σ ε : Type*) where
  initial : σ → Prop
  step : σ → ε → Option σ

namespace Machine

variable {σ σ' σ'' ε ε' ε'' : Type*}
variable {m : Machine σ ε} {n : Machine σ' ε'} {o : Machine σ'' ε''}
variable {guard admits : σ → ε → Prop} {s t u : σ}

/-- A path takes only the steps that its guard admits. -/
inductive Path (m : Machine σ ε) (guard : σ → ε → Prop) : σ → σ → Prop
  | refl (s : σ) : Path m guard s s
  | snoc {s t u : σ} (event : ε) (before : Path m guard s t) (admitted : guard t event)
      (taken : m.step t event = some u) : Path m guard s u

/-- The guard that admits every step. -/
def anything (_ : σ) (_ : ε) : Prop := True

instance (s : σ) (event : ε) : Decidable (anything s event) := .isTrue trivial

/-- A state is reachable when a path leads to it from an initial state. -/
def Reachable (m : Machine σ ε) (guard : σ → ε → Prop) (t : σ) : Prop :=
  ∃ s, m.initial s ∧ m.Path guard s t

/-- One admitted step is a path. -/
theorem Path.single (event : ε) (admitted : guard s event) (taken : m.step s event = some t) :
    m.Path guard s t := .snoc event (.refl s) admitted taken

/-- Paths compose. -/
theorem Path.trans (first : m.Path guard s t) (second : m.Path guard t u) :
    m.Path guard s u := by
  induction second with
  | refl => exact first
  | snoc event _ admitted taken before => exact .snoc event before admitted taken

/-- A weaker guard admits the same path. -/
theorem Path.mono (weaker : ∀ s event, guard s event → admits s event)
    (path : m.Path guard s t) : m.Path admits s t := by
  induction path with
  | refl => exact .refl _
  | snoc event _ admitted taken before => exact .snoc event before (weaker _ _ admitted) taken

/-- A property that each admitted step keeps holds along the whole path. -/
theorem Path.invariant {holds : σ → Prop}
    (keeps : ∀ s event t, guard s event → m.step s event = some t → holds s → holds t)
    (path : m.Path guard s t) (start : holds s) : holds t := by
  induction path with
  | refl => exact start
  | snoc event _ admitted taken before => exact keeps _ event _ admitted taken before

/-- A property that becomes true on a path becomes true in one of its steps. -/
theorem Path.crossing {holds : σ → Prop} (path : m.Path guard s t) (before : ¬ holds s)
    (after : holds t) : ∃ u event v, m.Path guard s u ∧ guard u event ∧
      m.step u event = some v ∧ ¬ holds u ∧ holds v ∧ m.Path guard v t := by
  induction path with
  | refl => exact absurd after before
  | @snoc u v event first admitted taken earlier =>
      by_cases held : holds u
      · obtain ⟨u', event', v', start, admitted', taken', no, yes, rest⟩ := earlier held
        exact ⟨u', event', v', start, admitted', taken', no, yes, rest.snoc event admitted taken⟩
      · exact ⟨u, event, v, first, admitted, taken, held, after, .refl v⟩

/-- A path continues a reachable state. -/
theorem Reachable.extend (reached : m.Reachable guard s) (path : m.Path guard s t) :
    m.Reachable guard t := by
  obtain ⟨origin, initial, before⟩ := reached
  exact ⟨origin, initial, before.trans path⟩

/-- A weaker guard reaches the same state. -/
theorem Reachable.mono (weaker : ∀ s event, guard s event → admits s event)
    (reached : m.Reachable guard s) : m.Reachable admits s := by
  obtain ⟨origin, initial, before⟩ := reached
  exact ⟨origin, initial, before.mono weaker⟩

/-- An initial property that each admitted step keeps holds in every reachable state. -/
theorem Reachable.invariant {holds : σ → Prop} (start : ∀ s, m.initial s → holds s)
    (keeps : ∀ s event t, guard s event → m.step s event = some t → holds s → holds t)
    (reached : m.Reachable guard s) : holds s := by
  obtain ⟨origin, initial, before⟩ := reached
  exact before.invariant keeps (start origin initial)

/-- A later invariant may use an invariant that is already established. -/
theorem Reachable.strengthen (known : σ → Prop) {holds : σ → Prop}
    (established : ∀ s, m.Reachable guard s → known s) (start : ∀ s, m.initial s → holds s)
    (keeps : ∀ s event t, known s → known t → guard s event → m.step s event = some t →
      holds s → holds t)
    (reached : m.Reachable guard s) : holds s := by
  obtain ⟨origin, initial, before⟩ := reached
  induction before with
  | refl => exact start _ initial
  | snoc event path admitted taken inner =>
      have earlier : m.Reachable guard _ := ⟨origin, initial, path⟩
      have later := earlier.extend (.single event admitted taken)
      exact keeps _ event _ (established _ earlier) (established _ later) admitted taken inner

/-- This function executes a list of events and stops at the first step that is not admitted. -/
def execute (m : Machine σ ε) (guard : σ → ε → Prop) [∀ s event, Decidable (guard s event)] :
    σ → List ε → Option σ
  | s, [] => some s
  | s, event :: rest =>
      if guard s event then (m.step s event).bind fun t => execute m guard t rest else none

/-- A successful execution is a path. -/
theorem path_of_execute [∀ s event, Decidable (guard s event)] (events : List ε)
    (ran : m.execute guard s events = some t) : m.Path guard s t := by
  induction events generalizing s with
  | nil =>
      simp only [execute, Option.some.injEq] at ran
      exact ran ▸ .refl s
  | cons event rest ih =>
      simp only [execute] at ran
      split at ran
      · rename_i admitted
        obtain ⟨next, taken, continued⟩ := Option.bind_eq_some_iff.mp ran
        exact (Path.single event admitted taken).trans (ih continued)
      · cases ran

/-- A successful execution from an initial state reaches its result. -/
theorem reachable_of_execute [∀ s event, Decidable (guard s event)] (events : List ε)
    (initial : m.initial s) (ran : m.execute guard s events = some t) : m.Reachable guard t :=
  ⟨s, initial, path_of_execute events ran⟩

/-- An observation of a successful execution is one of a reachable state. -/
theorem reachable_of_observed {β : Type*} (m : Machine σ ε) (guard : σ → ε → Prop)
    [∀ s event, Decidable (guard s event)] (observe : σ → β) (value : β) (events : List ε)
    (initial : m.initial s)
    (ran : (m.execute guard s events).map observe = some value) :
    ∃ t, m.Reachable guard t ∧ observe t = value := by
  obtain ⟨t, executed, observed⟩ := Option.map_eq_some_iff.mp ran
  exact ⟨t, reachable_of_execute events initial executed, observed⟩

/-- Two successive executions give a reachable state and a path from it. -/
theorem path_of_observed {β γ : Type*} (m : Machine σ ε) (guard : σ → ε → Prop)
    [∀ s event, Decidable (guard s event)] (observe : σ → β) (value : β) (observe' : σ → γ)
    (value' : γ) (before after : List ε) (initial : m.initial s)
    (ran : ((m.execute guard s before).bind fun t =>
      (m.execute guard t after).map fun u => (observe t, observe' u)) = some (value, value')) :
    ∃ t u, m.Reachable guard t ∧ m.Path guard t u ∧ observe t = value ∧ observe' u = value' := by
  obtain ⟨t, first, rest⟩ := Option.bind_eq_some_iff.mp ran
  obtain ⟨u, second, observed⟩ := Option.map_eq_some_iff.mp rest
  simp only [Prod.mk.injEq] at observed
  exact ⟨t, u, reachable_of_execute before initial first, path_of_execute after second, observed⟩

/-- A forward simulation answers each admitted step by a path of the other machine. -/
structure Simulation (m : Machine σ ε) (n : Machine σ' ε') (guard : σ → ε → Prop) where
  related : σ → σ' → Prop
  start : ∀ s, m.initial s → ∃ a, n.initial a ∧ related s a
  follow : ∀ s a event t, related s a → guard s event → m.step s event = some t →
    ∃ b, n.Path anything a b ∧ related t b

/-- A simulation answers a whole path. -/
theorem Simulation.path (simulation : Simulation m n guard) {a : σ'}
    (related : simulation.related s a) (path : m.Path guard s t) :
    ∃ b, n.Path anything a b ∧ simulation.related t b := by
  induction path with
  | refl => exact ⟨a, .refl a, related⟩
  | snoc event _ admitted taken before =>
      obtain ⟨middle, first, relatedMiddle⟩ := before
      obtain ⟨final, second, relatedFinal⟩ :=
        simulation.follow _ middle event _ relatedMiddle admitted taken
      exact ⟨final, first.trans second, relatedFinal⟩

/-- A simulation relates each reachable state to a reachable state. -/
theorem Simulation.reachable (simulation : Simulation m n guard) (reached : m.Reachable guard s) :
    ∃ a, n.Reachable anything a ∧ simulation.related s a := by
  obtain ⟨origin, initial, before⟩ := reached
  obtain ⟨abstract, abstractInitial, related⟩ := simulation.start origin initial
  obtain ⟨final, path, relatedFinal⟩ := simulation.path related before
  exact ⟨final, ⟨abstract, abstractInitial, path⟩, relatedFinal⟩

/-- Simulations compose. -/
def Simulation.comp (first : Simulation m n guard) (second : Simulation n o anything) :
    Simulation m o guard where
  related s b := ∃ a, first.related s a ∧ second.related a b
  start s initial := by
    obtain ⟨a, abstract, related⟩ := first.start s initial
    obtain ⟨b, abstract', related'⟩ := second.start a abstract
    exact ⟨b, abstract', a, related, related'⟩
  follow s b event t := by
    intro ⟨a, related, related'⟩ admitted taken
    obtain ⟨a', path, relatedAfter⟩ := first.follow s a event t related admitted taken
    obtain ⟨b', path', relatedAfter'⟩ := second.path related' path
    exact ⟨b', path', a', relatedAfter, relatedAfter'⟩

end Machine
