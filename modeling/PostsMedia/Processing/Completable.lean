import PostsMedia.Processing.Continuation
import PostsMedia.Processing.Recovery
import PostsMedia.Processing.Refinement

namespace PostsMedia.Processing

/-- From now on nothing fails. What was running before may turn out to be lost, and a client may
retry a failed media. -/
def FleetUndisturbed (produce : Produce) (s : FleetState) : FleetEvent → Prop
  | .work event => Undisturbed produce s.system event
  | .deliver .. | .redeliver .. | .claimDispatch .. => True
  | .retry id => id = s.media.id
  | .add _ _ fate _ => fate = .ok
  | _ => False

variable {fleet : Fleet} {s t : FleetState} {produce : Produce}

section Fresh

/-- Nobody has used the tokens from some number on. -/
def FreshFrom (s : FleetState) (first : Nat) : Prop :=
  ∀ x ≥ first, s.system.executions x = .idle ∧ ∀ dispatchId, s.publishers x dispatchId = .idle

/-- A step moves one execution or one publication at most. -/
def Moves (s t : FleetState) (x : Nat) : Prop :=
  ∀ y, y ≠ x → t.system.executions y = s.system.executions y ∧ t.publishers y = s.publishers y

theorem Moves.fresh {x first : Nat} (moves : Moves s t x) (fresh : FreshFrom s first) :
    FreshFrom t (max first (x + 1)) := by
  intro y later
  have other : y ≠ x := by
    rintro rfl
    exact absurd (Nat.le_trans (Nat.le_max_right ..) later) (by omega)
  obtain ⟨execution, publisher⟩ := moves y other
  rw [execution, publisher]
  exact fresh y (Nat.le_trans (Nat.le_max_left ..) later)

theorem commit_other {a : State} {x y : ExecutionId} (outcome : Outcome) (other : y ≠ x) :
    (a.commit x outcome).executions y = a.executions y := Function.update_of_ne other _ _

theorem executions_step {deployment : Deployment} {a b : State} {event : Event}
    (taken : step deployment a event = some b) :
    ∃ x, ∀ y, y ≠ x → b.executions y = a.executions y := by
  cases event with
  | tick | outbox =>
      cases taken
      exact ⟨0, fun _ _ => rfl⟩
  | deliver x payload attemptsMade =>
      simp only [step] at taken
      split at taken
      · obtain ⟨-, moved⟩ := Option.ite_none_right_eq_some.mp taken
        cases moved
        exact ⟨x, fun y other => commit_other _ other⟩
      · cases taken
  | run x action =>
      obtain ⟨outcome, -, rfl⟩ := Option.map_eq_some_iff.mp taken
      exact ⟨x, fun y other => commit_other _ other⟩
  | renew x generation asOf =>
      obtain ⟨-, moved⟩ := Option.ite_none_right_eq_some.mp taken
      cases moved
      exact ⟨0, fun _ _ => rfl⟩
  | crash x =>
      obtain ⟨-, moved⟩ := Option.ite_none_right_eq_some.mp taken
      cases moved
      exact ⟨x, fun y other => commit_other _ other⟩
  | retry id dispatchId =>
      obtain ⟨rows, -, rfl⟩ := Option.map_eq_some_iff.mp taken
      exact ⟨0, fun _ _ => rfl⟩

theorem moves_publishing (storing : t.system.executions = s.system.executions)
    (kept : t.publishers = s.publishers) (token : LeaseToken) (dispatchId : String)
    (publisher : Publisher) : Moves s (t.publishing token dispatchId publisher) token := by
  intro y other
  refine ⟨congrFun storing y, ?_⟩
  exact (Function.update_of_ne other _ _).trans (congrFun kept y)

theorem moves_step {event : FleetEvent} (taken : fleetStep fleet s event = some t) :
    ∃ x, Moves s t x := by
  cases effect_of_fleetStep taken with
  | work _ _ _ stepped =>
      obtain ⟨x, others⟩ := executions_step stepped
      exact ⟨x, fun y other => ⟨others y other, rfl⟩⟩
  | queue | delete => exact ⟨0, fun _ _ => ⟨rfl, rfl⟩⟩
  | @claim token => exact ⟨token, moves_publishing rfl rfl _ _ _⟩
  | publish _ token => exact ⟨token, moves_publishing rfl rfl _ _ _⟩
  | mark token => exact ⟨token, moves_publishing rfl rfl _ _ _⟩

/-- There are always unused tokens. -/
theorem fresh_path {guard : FleetState → FleetEvent → Prop} {first : Nat}
    (fresh : FreshFrom s first) (path : (fleetMachine fleet).Path guard s t) :
    ∃ later, FreshFrom t later := by
  induction path with
  | refl => exact ⟨first, fresh⟩
  | snoc event _ _ taken before =>
      obtain ⟨later, unused⟩ := before
      obtain ⟨x, moves⟩ := moves_step taken
      exact ⟨_, moves.fresh unused⟩

theorem fresh_of_reachable {guard : FleetState → FleetEvent → Prop}
    (reached : (fleetMachine fleet).Reachable guard s) : ∃ first, FreshFrom s first := by
  obtain ⟨origin, initial, path⟩ := reached
  obtain ⟨system, -, -, idle⟩ := initial
  have unused : FreshFrom origin 0 := fun x _ => ⟨system.2.2.2.1 x, idle x⟩
  exact fresh_path unused path

end Fresh

section Dated

/-- A dispatch under a lease knows when the lease ends. -/
def Dated (dispatches : List ProcessingDispatch) : Prop :=
  ∀ dispatch ∈ dispatches, dispatch.status = .publishing → dispatch.leaseExpiresAt.isSome = true

variable {dispatches : List ProcessingDispatch} {token : LeaseToken} {id : String}

theorem Dated.map {change : ProcessingDispatch → ProcessingDispatch} (dated : Dated dispatches)
    (keeps : ∀ dispatch ∈ dispatches, change dispatch = dispatch ∨
      ((change dispatch).status = .publishing → (change dispatch).leaseExpiresAt.isSome = true)) :
    Dated (dispatches.map change) := by
  intro dispatch member
  obtain ⟨old, present, rfl⟩ := List.mem_map.mp member
  rcases keeps old present with same | changed
  · rw [same]
    exact dated old present
  · exact changed

/-- A mark gives the lease up. -/
theorem Dated.mark {change : ProcessingDispatch → ProcessingDispatch} (dated : Dated dispatches)
    (released : ∀ dispatch, (change dispatch).status ≠ .publishing) :
    Dated (updateOwned dispatches id token change) := by
  refine dated.map fun dispatch _ => ?_
  split
  · exact .inr fun publishing => absurd publishing (released dispatch)
  · exact .inl rfl

theorem Dated.claim {leaseSeconds : Nat} {now : Time}
    {claimed : List ProcessingDispatch × ProcessingDispatch} (dated : Dated dispatches)
    (taken : claimDispatch dispatches id leaseSeconds token now = some claimed) :
    Dated claimed.1 := by
  obtain ⟨found, -, rfl⟩ := Option.map_eq_some_iff.mp taken
  refine dated.map fun dispatch _ => ?_
  split
  · exact .inr fun _ => rfl
  · exact .inl rfl

end Dated

section Paths

/-- The undisturbed steps that give up no job. -/
def Quiet (fleet : Fleet) (produce : Produce) (s : FleetState) (event : FleetEvent) : Prop :=
  FleetUndisturbed produce s event ∧ KeepsJobs fleet s event

theorem Quiet.path (path : (fleetMachine fleet).Path (Quiet fleet produce) s t) :
    (fleetMachine fleet).Path (FleetUndisturbed produce) s t := path.mono fun _ _ both => both.1

def FleetState.later (s : FleetState) (duration : Time) : FleetState :=
  { s with system := { s.system with now := s.system.now + duration } }

/-- The time from which on an open dispatch can be claimed. -/
def due (dispatch : ProcessingDispatch) : Time :=
  dispatch.nextAttemptAt.getD 0 + dispatch.leaseExpiresAt.getD 0

end Paths

end PostsMedia.Processing
