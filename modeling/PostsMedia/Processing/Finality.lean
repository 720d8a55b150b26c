import PostsMedia.Processing.Recovery
import PostsMedia.Processing.Refinement

namespace PostsMedia.Processing

/-- A claim of the present generation takes effect on a failed row. -/
def Reopens (s : State) : Event → Prop
  | .run x (.claim fate) =>
      match s.executions x with
      | .claiming payload _ _ => fate.tookEffect = true ∧
          payload.generation = s.rows.media.processingGeneration ∧
          s.rows.media.processingStatus = .failed
      | _ => False
  | _ => False

/-- The runs in which no claim of the present generation finds the row failed. -/
def LeavesFailed (s : FleetState) : FleetEvent → Prop
  | .work event => ¬ Reopens s.system event
  | _ => True

instance (s : State) (event : Event) : Decidable (Reopens s event) := by
  unfold Reopens
  rcases event
  case run x action =>
    rcases action
    case claim =>
      dsimp only
      generalize s.executions x = phase
      rcases phase <;> infer_instance
    all_goals infer_instance
  all_goals infer_instance

instance (s : FleetState) (event : FleetEvent) : Decidable (LeavesFailed s event) := by
  rcases event <;> unfold LeavesFailed <;> infer_instance

section Workers

variable {deployment : Deployment} {s t : State} {x : ExecutionId}

/-- Only a claim of the present generation writes a row that nobody holds. -/
theorem media_of_act {action : Action} {outcome : Outcome}
    (unheld : s.rows.media.processingLeaseToken = none)
    (taken : act deployment s x action (s.executions x) = some outcome)
    (kept : ∀ payload attemptsMade asOf, s.executions x = .claiming payload attemptsMade asOf →
      action ≠ .claim .refused → payload.generation ≠ s.rows.media.processingGeneration) :
    outcome.rows.media = s.rows.media := by
  obtain ⟨phase, started⟩ : ∃ phase, s.executions x = phase := ⟨_, rfl⟩
  rw [started] at taken kept
  have idle (operation : Operation) (run : Run) : run.rows operation s x = s.rows := by
    rw [Run.rows, operation.run_of_lost (by simp [unheld])]
  have foreign (payload : MediaJobPayloadV1) (asOf : Time)
      (other : payload.generation ≠ s.rows.media.processingGeneration) :
      claimRows deployment s x payload asOf = s.rows :=
    claimRows_of_taken (by simp [Media.claimable, Ne.symm other])
  cases statement_of_act taken with
  | claim payload attemptsMade asOf | claimUnacknowledged payload attemptsMade asOf =>
      have other := kept payload attemptsMade asOf rfl (by simp)
      exact congrArg Rows.media (foreign payload asOf other)
  | attempt | attemptUnacknowledged => exact (createAttempt_frame s.rows _).1
  | publish run upload variants error | publishUnacknowledged run upload variants error =>
      exact congrArg Rows.media (idle _ run)
  | complete run | completeUnacknowledged run | fail run =>
      exact congrArg Rows.media (idle _ run)
  | _ => rfl

/-- Every other step leaves a failed row alone, except a manual retry. -/
theorem media_of_failed (invariant : Invariant deployment s) {event : Event}
    (failed : s.rows.media.processingStatus = .failed) (kept : ¬ Reopens s event)
    (taken : step deployment s event = some t) :
    (∃ id dispatchId, event = .retry id dispatchId) ∨ t.rows.media = s.rows.media := by
  have unheld : s.rows.media.processingLeaseToken = none := by
    have token := invariant.settled.leased.token
    simpa [failed] using token
  cases event with
  | retry id dispatchId => exact .inl ⟨id, dispatchId, rfl⟩
  | tick | outbox =>
      cases taken
      exact .inr rfl
  | deliver | crash =>
      simp only [step] at taken
      repeat' split at taken
      all_goals cases taken
      all_goals exact .inr rfl
  | renew y generation asOf =>
      simp only [step] at taken
      split at taken <;> cases taken
      right
      rw [Operation.run_of_lost _ (by simp [unheld])]
  | run y action =>
      obtain ⟨outcome, acted, rfl⟩ := Option.map_eq_some_iff.mp taken
      right
      apply media_of_act unheld acted
      intro payload attemptsMade asOf started effective current
      apply kept
      cases action with
      | claim fate =>
          simp only [Reopens, started]
          refine ⟨?_, current, failed⟩
          cases fate <;> simp_all [Fate.tookEffect]
      | _ => simp [started, act, actRead, actCreateAttempt, actCreateWorkspace,
          actDownloadAndVerify, actHandle, actPut, actCheck, actCopy, actVerify, actPublish,
          actRemove, actComplete, actFail] at acted

/-- No step takes a generation back. -/
theorem generation_of_step {event : Event} (taken : step deployment s event = some t) :
    s.rows.media.processingGeneration ≤ t.rows.media.processingGeneration := by
  cases event with
  | tick | outbox =>
      cases taken
      exact Nat.le_refl _
  | deliver | crash =>
      simp only [step] at taken
      repeat' split at taken
      all_goals cases taken
      all_goals exact Nat.le_refl _
  | renew y generation asOf =>
      simp only [step] at taken
      split at taken <;> cases taken
      exact Nat.le_of_eq (Operation.run_frame _).1.symm
  | retry id dispatchId =>
      obtain ⟨rows, retried, rfl⟩ := Option.map_eq_some_iff.mp taken
      obtain ⟨_, _, rfl⟩ := retry_spec retried
      exact Nat.le_succ _
  | run y action =>
      obtain ⟨outcome, acted, rfl⟩ := Option.map_eq_some_iff.mp taken
      generalize s.executions y = phase at acted
      apply Nat.le_of_eq
      cases statement_of_act acted with
      | claim | claimUnacknowledged => exact (claim_frame _ _).1.symm
      | attempt | attemptUnacknowledged =>
          exact congrArg Media.processingGeneration (createAttempt_frame s.rows _).1.symm
      | publish | publishUnacknowledged | complete | completeUnacknowledged | fail =>
          exact (Operation.run_frame _).1.symm
      | _ => rfl

end Workers

variable {fleet : Fleet} {s t : FleetState}

/-- The fleet changes a failed row by a manual retry only. -/
theorem media_of_failedFleet (invariant : Invariant fleet.toDeployment s.system)
    {event : FleetEvent} (failed : s.media.processingStatus = .failed)
    (kept : LeavesFailed s event) (taken : fleetStep fleet s event = some t) :
    (∃ id, event = .retry id) ∨ t.media = s.media := by
  rcases system_of_fleetStep taken with same | ⟨worked, drives, stepped⟩
  · exact .inr (congrArg (fun system => system.rows.media) same)
  · have calm : ¬ Reopens s.system worked := by
      intro reopens
      cases worked with
      | run x action =>
          cases event <;> simp only [FleetEvent.drives] at drives
          subst drives
          exact kept reopens
      | _ => exact reopens
    rcases media_of_failed invariant failed calm stepped with ⟨id, dispatchId, rfl⟩ | same
    · cases event <;> simp only [FleetEvent.drives] at drives
      · subst drives
        cases taken
      · exact .inl ⟨_, rfl⟩
    · exact .inr same

theorem generation_of_fleetStep {event : FleetEvent} (taken : fleetStep fleet s event = some t) :
    s.media.processingGeneration ≤ t.media.processingGeneration := by
  rcases system_of_fleetStep taken with same | ⟨_, _, stepped⟩
  · exact Nat.le_of_eq (congrArg (fun system => system.rows.media.processingGeneration) same.symm)
  · exact generation_of_step stepped

/-- A manual retry reopened the row as a new pending generation before the second state. -/
def RetriedSince (fleet : Fleet) (guard : FleetState → FleetEvent → Prop) (s t : FleetState) :
    Prop :=
  ∃ u v id, (fleetMachine fleet).Path guard s u ∧ u.media = s.media ∧
    fleetStep fleet u (.retry id) = some v ∧ v.media.processingStatus = .pending ∧
    v.media.processingGeneration = s.media.processingGeneration + 1 ∧
    (fleetMachine fleet).Path guard v t

/-- A failed row stays as it is until a manual retry, and nobody processes its generation again. -/
def FailedUntilRetry (fleet : Fleet) (guard : FleetState → FleetEvent → Prop) : Prop :=
  ∀ s t, (fleetMachine fleet).Reachable guard s → s.media.processingStatus = .failed →
    (fleetMachine fleet).Path guard s t →
    (t.media = s.media ∨ RetriedSince fleet guard s t) ∧
      (t.media.processingStatus = .processing →
        s.media.processingGeneration < t.media.processingGeneration)

/-- The retry of the fleet starts the next generation. -/
theorem media_of_retry {id : String} (retried : fleetStep fleet s (.retry id) = some t) :
    t.media.processingStatus = .pending ∧
      t.media.processingGeneration = s.media.processingGeneration + 1 := by
  obtain ⟨system, stepped, rfl⟩ := Option.map_eq_some_iff.mp retried
  obtain ⟨rows, written, rfl⟩ := Option.map_eq_some_iff.mp stepped
  obtain ⟨_, _, rfl⟩ := retry_spec written
  exact ⟨rfl, rfl⟩

/-- A failed row is left by a manual retry only, while no claim finds it failed. -/
theorem fleet_failedUntilRetry (fleet : Fleet) : FailedUntilRetry fleet LeavesFailed := by
  intro s t reached failed path
  have split : t.media = s.media ∨ RetriedSince fleet LeavesFailed s t := by
    induction path with
    | refl => exact .inl rfl
    | @snoc u v event before admitted taken inner =>
        rcases inner with same | ⟨a, b, id, toRetry, kept, retried, pending, next, onward⟩
        · have system := (fleetSimulation fleet).reachable
            ((reached.extend before).mono fun _ _ _ => trivial)
          obtain ⟨_, workers, rfl⟩ := system
          have invariant := invariant_of_reachable workers
          rcases media_of_failedFleet invariant (by rw [same]; exact failed) admitted taken with
            ⟨id, rfl⟩ | unchanged
          · obtain ⟨pending, next⟩ := media_of_retry taken
            rw [same] at next
            exact .inr ⟨u, v, id, before, same, taken, pending, next, .refl v⟩
          · exact .inl (unchanged.trans same)
        · exact .inr ⟨a, b, id, toRetry, kept, retried, pending, next,
            onward.snoc event admitted taken⟩
  refine ⟨split, fun processing => ?_⟩
  rcases split with same | ⟨_, v, _, _, _, _, _, next, onward⟩
  · rw [same, failed] at processing
    cases processing
  · have keeps : ∀ a event b, LeavesFailed a event →
        (fleetMachine fleet).step a event = some b →
        v.media.processingGeneration ≤ a.media.processingGeneration →
        v.media.processingGeneration ≤ b.media.processingGeneration :=
      fun _ _ _ _ taken below => Nat.le_trans below (generation_of_fleetStep taken)
    have later := onward.invariant keeps (Nat.le_refl _)
    omega

/-- One delivery of the recording that fails in its download. -/
def toFailure (x : ExecutionId) : List FleetEvent :=
  .deliver x "media-media-0-generation-1" ::
    ([.claim .ok, .read true, .createAttempt .ok, .createWorkspace true,
      .downloadAndVerify (some "PROCESSING_CHECKSUM_MISMATCH"), .fail .ok].map fun action =>
        .work (.run x action))

/-- The dispatch is published, and all three attempts fail. The last one is not acknowledged. -/
def toFinalFailure : List FleetEvent :=
  [.claimDispatch 0 "d" 0, .add 0 "d" .ok "", .markPublished 0 "d" .ok ""] ++
    toFailure 0 ++ [.acknowledge 0 "media-media-0-generation-1"] ++
    toFailure 1 ++ [.acknowledge 1 "media-media-0-generation-1"] ++ toFailure 2

/-- A manual retry gives the failed recording its second generation. -/
theorem recording_retried : ∃ s t, (fleetMachine sampleFleet).Reachable LeavesFailed s ∧
    s.media.processingStatus = .failed ∧ (fleetMachine sampleFleet).Path LeavesFailed s t ∧
    t.media.processingStatus = .pending ∧ t.media.processingGeneration = 2 ∧
    RetriedSince sampleFleet LeavesFailed s t := by
  obtain ⟨s, t, reached, path, failed, observed⟩ := (fleetMachine sampleFleet).path_of_observed
    LeavesFailed (fun s => s.media.processingStatus) .failed
    (fun s => (s.media.processingStatus, s.media.processingGeneration)) (.pending, 2)
    toFinalFailure [.retry "media-0"] fleetStart_initial (by decide)
  simp only [Prod.mk.injEq] at observed
  obtain ⟨pending, generation⟩ := observed
  refine ⟨s, t, reached, failed, path, pending, generation, ?_⟩
  rcases (fleet_failedUntilRetry sampleFleet s t reached failed path).1 with same | retried
  · rw [same, failed] at pending
    cases pending
  · exact retried

/-- The worker of the last attempt dies after `fail` has committed and before the acknowledgement.
The redelivered job claims the failed row, and the first generation is processed again. -/
theorem recording_reopened : ¬ FailedUntilRetry sampleFleet Machine.anything := by
  intro kept
  obtain ⟨s, t, reached, path, failed, observed⟩ := (fleetMachine sampleFleet).path_of_observed
    Machine.anything (fun s => (s.media.processingStatus, s.media.processingGeneration))
    (.failed, 1) (fun s => (s.media.processingStatus, s.media.processingGeneration))
    (.processing, 1) toFinalFailure
    [.redeliver 3 "media-media-0-generation-1", .work (.run 3 (.claim .ok))]
    fleetStart_initial (by decide)
  simp only [Prod.mk.injEq] at failed observed
  have later := (kept s t reached failed.1 path).2 observed.1
  rw [failed.2, observed.2] at later
  exact absurd later (by decide)

end PostsMedia.Processing
