import PostsMedia.Processing.Turns

namespace PostsMedia.Processing

variable {deployment : Deployment} {s t : State} {event : Event} {x : ExecutionId}

/-- The execution has returned or thrown. -/
def Phase.settled : Phase → Bool
  | .returned | .threw => true
  | _ => false

/-- The writes of `fail` succeed. -/
def FailWrites (_ : State) : Event → Prop
  | .run _ (.fail fate) => fate ≠ .refused
  | _ => True

/-- Nothing fails between the claim and the `try` block of an execution whose token the row
carries, and no claim that takes effect loses its answer. -/
def SetsUp (s : State) : Event → Prop
  | .run x action =>
      match s.executions x, action with
      | .claiming payload _ asOf, .claim .unacknowledged =>
          s.rows.media.claimable payload.generation asOf = false
      | .reading _ _, .read false => s.rows.media.processingLeaseToken ≠ some x
      | .starting _ _ _, .createAttempt .refused => s.rows.media.processingLeaseToken ≠ some x
      | .starting _ _ _, .createAttempt .unacknowledged =>
          s.rows.media.processingLeaseToken ≠ some x
      | .preparing _, .createWorkspace false => s.rows.media.processingLeaseToken ≠ some x
      | _, _ => True
  | _ => True

/-- The runs whose executions come safely from their claim into their `try` block. -/
def SetUpRuns (s : State) (event : Event) : Prop := FailWrites s event ∧ SetsUp s event

instance : Decidable (FailWrites s event) := by
  unfold FailWrites
  rcases event
  case run x action => rcases action <;> infer_instance
  all_goals infer_instance

instance : Decidable (SetsUp s event) := by
  unfold SetsUp
  rcases event
  case run x action =>
    dsimp only
    generalize s.executions x = phase
    rcases action with ⟨_ | _⟩ | ⟨_ | _⟩ | ⟨_ | _⟩ | ⟨_ | _⟩ <;> rcases phase <;> infer_instance
  all_goals infer_instance

instance : Decidable (SetUpRuns s event) := inferInstanceAs (Decidable (_ ∧ _))

/-- No settled execution has left its lease token in the row. -/
def Released (s : State) : Prop :=
  ∀ x, (s.executions x).settled = true → s.rows.media.processingLeaseToken ≠ some x

/-- The holder of the lease is at work on the present generation, or it crashed. -/
def Working (generation : Nat) (phase : Phase) : Prop :=
  phase = .crashed ∨ phase.claimed = true ∧
    ∀ payload attemptsMade, phase.delivery = some (payload, attemptsMade) →
      payload.generation = generation

/-- Only a working execution holds the lease. -/
def Holding (s : State) : Prop :=
  ∀ x, s.rows.media.processingLeaseToken = some x →
    Working s.rows.media.processingGeneration (s.executions x)

section Phases

variable {generation : Nat} {phase later : Phase} {payload : MediaJobPayloadV1} {attemptsMade : Nat}

/-- A settled execution does not work. -/
theorem Working.not_settled (working : Working generation phase) : phase.settled = false := by
  rcases working with rfl | ⟨claimed, _⟩
  · rfl
  · cases phase <;> simp [Phase.claimed] at claimed <;> rfl

theorem Working.generation_eq (working : Working generation phase)
    (delivery : phase.delivery = some (payload, attemptsMade)) :
    payload.generation = generation := by
  rcases working with rfl | ⟨_, same⟩
  · cases delivery
  · exact same payload attemptsMade delivery

/-- The same delivery goes on. -/
theorem Working.next (working : Working generation phase)
    (delivery : phase.delivery = some (payload, attemptsMade))
    (same : later.delivery = some (payload, attemptsMade)) (claimed : later.claimed = true) :
    Working generation later := by
  refine .inr ⟨claimed, fun other made present => ?_⟩
  rw [same] at present
  cases present
  exact working.generation_eq delivery

theorem nextUpload_claimed (run : Run) (upload : Upload) :
    (nextUpload run upload).claimed = true := by
  unfold nextUpload
  split <;> rfl

end Phases

theorem released_of_holding (holding : Holding s) : Released s := by
  intro x settled held
  rw [(holding x held).not_settled] at settled
  cases settled

section Steps

variable {outcome : Outcome}

/-- A statement without a lease write leaves the other executions their lease. -/
theorem Holding.keep (holding : Holding s)
    (token : outcome.rows.media.processingLeaseToken = s.rows.media.processingLeaseToken)
    (generation : outcome.rows.media.processingGeneration = s.rows.media.processingGeneration)
    (own : s.rows.media.processingLeaseToken = some x →
      Working s.rows.media.processingGeneration (s.executions x) →
      Working s.rows.media.processingGeneration outcome.phase) :
    Holding (s.commit x outcome) := by
  intro y held
  have before : s.rows.media.processingLeaseToken = some y := token.symm.trans held
  show Working outcome.rows.media.processingGeneration
    (Function.update s.executions x outcome.phase y)
  rw [generation]
  by_cases same : y = x
  · subst same
    rw [Function.update_self]
    exact own before (holding y before)
  · rw [Function.update_of_ne same]
    exact holding y before

/-- A row without a token is held by nobody. -/
theorem holding_of_free (free : s.rows.media.processingLeaseToken = none) : Holding s := by
  intro x held
  rw [free] at held
  cases held

/-- An operation that gives the lease up leaves a free row or finds a foreign lease. -/
theorem Holding.finish (holding : Holding s) {run : Run} {operation : Operation}
    (finishes : operation.finishes = true)
    (delivery : (s.executions x).delivery = some (run.payload, run.attemptsMade)) :
    (run.rows operation s x).media.processingLeaseToken = none ∨
      run.rows operation s x = s.rows ∧ s.rows.media.processingLeaseToken ≠ some x := by
  by_cases held : s.rows.media.processingLeaseToken = some x
  · have current := (holding x held).generation_eq delivery
    left
    cases operation <;> simp only [Operation.finishes, Bool.false_eq_true] at finishes
    all_goals simp [Run.rows, Operation.run, Media.guarded, held, current, Media.completed,
      Media.failed]
  · right
    exact ⟨congrArg Prod.fst (operation.run_of_lost held), held⟩

/-- An execution that gave its lease up may end. -/
theorem Holding.release (holding : Holding s) {run : Run} {operation : Operation} {phase : Phase}
    (finishes : operation.finishes = true)
    (delivery : (s.executions x).delivery = some (run.payload, run.attemptsMade)) :
    Holding (s.commit x (s.writing (run.rows operation s x) phase)) := by
  rcases holding.finish finishes delivery with free | ⟨same, lost⟩
  · exact holding_of_free free
  · rw [same]
    exact holding.keep rfl rfl fun held => absurd held lost

/-- Every statement of an admitted run keeps the lease with a working execution. -/
theorem holding_act (holding : Holding s) {action : Action} (fails : FailWrites s (.run x action))
    (setsUp : SetsUp s (.run x action))
    (taken : act deployment s x action (s.executions x) = some outcome) :
    Holding (s.commit x outcome) := by
  obtain ⟨phase, started⟩ : ∃ phase, s.executions x = phase := ⟨_, rfl⟩
  simp only [SetsUp, started] at setsUp
  rw [started] at taken
  have quiet (next : Phase) (lost : s.rows.media.processingLeaseToken ≠ some x) :
      Holding (s.commit x (s.goto next)) := holding.keep rfl rfl fun held => absurd held lost
  have onward (payload : MediaJobPayloadV1) (attemptsMade : Nat) (next : Phase)
      (delivery : phase.delivery = some (payload, attemptsMade))
      (same : next.delivery = some (payload, attemptsMade)) (claimed : next.claimed = true)
      (outcome : Outcome) (rows : outcome.rows.media = s.rows.media)
      (arrived : outcome.phase = next) : Holding (s.commit x outcome) := by
    refine holding.keep (by rw [rows]) (by rw [rows]) fun _ working => ?_
    rw [started] at working
    rw [arrived]
    exact working.next delivery same claimed
  have unclaimed (early : phase.claimed = false) (alive : phase ≠ .crashed) :
      s.rows.media.processingLeaseToken ≠ some x := by
    intro held
    rcases holding x held with crashed | ⟨claimed, _⟩
    · exact alive (started.symm.trans crashed)
    · rw [started, early] at claimed
      cases claimed
  have statement := statement_of_act taken
  cases statement with
  | claimRefused => exact quiet _ (unclaimed rfl nofun)
  | claimUnacknowledged payload attemptsMade asOf =>
      have same : claimRows deployment s x payload asOf = s.rows :=
        claimRows_of_taken (by rw [setsUp]; exact Bool.false_ne_true)
      rw [same]
      exact quiet _ (unclaimed rfl nofun)
  | claim payload attemptsMade asOf matched =>
      have current : s.rows.media.processingGeneration = payload.generation := by
        simp only [Media.claimable, Bool.and_eq_true, decide_eq_true_eq] at matched
        exact matched.1.1
      simp only [claimRows, claim, if_pos matched]
      intro y held
      obtain rfl : x = y := Option.some.inj held
      refine .inr ⟨?_, fun other made delivery => ?_⟩
      · simp [State.commit, State.writing, Phase.claimed]
      · simp only [State.commit, State.writing, Function.update_self, Phase.delivery,
          Option.some.injEq, Prod.mk.injEq] at delivery
        rw [← delivery.1]
        exact current.symm
  | leave => exact quiet _ (unclaimed rfl nofun)
  | readLost | attemptRefused | workspaceLost => exact quiet _ setsUp
  | attempt payload attemptsMade media =>
      exact onward payload attemptsMade _ rfl rfl rfl _ (createAttempt_frame _ _).1 rfl
  | attemptUnacknowledged payload attemptsMade media =>
      have media := (createAttempt_frame s.rows (newAttempt deployment x payload attemptsMade)).1
      exact holding.keep (congrArg _ media) (congrArg _ media) fun held => absurd held setsUp
  | handle run result files =>
      exact onward run.payload run.attemptsMade _ rfl (nextUpload_delivery ..)
        (nextUpload_claimed ..) _ rfl rfl
  | verify run upload =>
      exact onward run.payload run.attemptsMade _ rfl (nextUpload_delivery ..)
        (nextUpload_claimed ..) _ rfl rfl
  | publish run upload variants error matched =>
      have free : (run.rows (.publish run.attemptId variants upload.metadata) s
          x).media.processingLeaseToken = none := by
        simp [Run.rows, Operation.run, matched, Media.completed]
      exact holding_of_free free
  | publishUnacknowledged run upload variants error matched =>
      have free : (run.rows (.publish run.attemptId variants upload.metadata) s
          x).media.processingLeaseToken = none := by
        simp [Run.rows, Operation.run, matched, Media.completed]
      exact holding_of_free free
  | complete run error => exact holding.release rfl (by rw [started]; rfl)
  | completeUnacknowledged run error => exact holding.release rfl (by rw [started]; rfl)
  | fail run message => exact holding.release rfl (by rw [started]; rfl)
  | failRefused => exact absurd rfl fails
  | read payload attemptsMade => exact onward payload attemptsMade _ rfl rfl rfl _ rfl rfl
  | workspace run | download run | downloadLost run | handleLost run | put run
  | putUnacknowledged run | check run | copy run | copyUnacknowledged run | abort run
  | publishLost run | skip run | remove run | removed run | removedLost run
  | completeRefused run =>
      exact onward run.payload run.attemptsMade _ rfl rfl rfl _ rfl rfl

/-- Every event of an admitted run keeps the lease with a working execution. -/
theorem holding_step (holding : Holding s) (fails : FailWrites s event) (setsUp : SetsUp s event)
    (taken : step deployment s event = some t) : Holding t := by
  cases event with
  | tick =>
      cases taken
      exact holding
  | deliver x payload attemptsMade =>
      simp only [step] at taken
      split at taken
      · rename_i idle
        split at taken <;> cases taken
        refine holding.keep rfl rfl fun held working => ?_
        rw [idle] at working
        rcases working with crashed | ⟨claimed, _⟩
        · cases crashed
        · cases claimed
      · cases taken
  | run x action =>
      obtain ⟨outcome, acted, rfl⟩ := Option.map_eq_some_iff.mp taken
      exact holding_act holding fails setsUp acted
  | renew x generation asOf =>
      simp only [step, Operation.run] at taken
      split at taken
      · cases taken
        by_cases matched : s.rows.media.renewable generation x = true
        · rw [if_pos matched]
          exact holding
        · rw [if_neg matched]
          exact holding
      · cases taken
  | crash x =>
      simp only [step] at taken
      split at taken <;> cases taken
      exact holding.keep rfl rfl fun _ _ => .inl rfl
  | retry id dispatchId =>
      obtain ⟨rows, retried, rfl⟩ := Option.map_eq_some_iff.mp taken
      obtain ⟨_, _, rfl⟩ := retry_spec retried
      exact holding_of_free rfl
  | outbox =>
      cases taken
      exact holding

theorem holding_of_reachable (reached : (machine deployment).Reachable SetUpRuns s) :
    Holding s := by
  refine reached.invariant ?_ fun _ _ _ admitted taken holding =>
    holding_step holding admitted.1 admitted.2 taken
  intro start initial
  exact holding_of_free initial.1.token

/-- A failure on the way into the `try` block settles an execution that still has its lease. -/
theorem not_released_of_act {action : Action} (fails : ¬ SetsUp s (.run x action))
    (taken : act deployment s x action (s.executions x) = some outcome) :
    ¬ Released (s.commit x outcome) := by
  have left (phase : outcome.phase = .threw)
      (held : outcome.rows.media.processingLeaseToken = some x) :
      ¬ Released (s.commit x outcome) := by
    intro released
    refine released x ?_ held
    simp [State.commit, phase, Phase.settled]
  simp only [SetsUp] at fails
  split at fails
  · rename_i payload attemptsMade asOf started
    rw [Bool.not_eq_false] at fails
    rw [started] at taken
    simp only [act, actClaim, claim, if_pos fails, reduceCtorEq, if_false] at taken
    cases taken
    exact left rfl rfl
  · rename_i started
    rw [started] at taken
    cases taken
    exact left rfl (not_not.mp fails)
  · rename_i started
    rw [started] at taken
    cases taken
    exact left rfl (not_not.mp fails)
  · rename_i payload attemptsMade media started
    rw [started] at taken
    cases taken
    have same := (createAttempt_frame s.rows (newAttempt deployment x payload attemptsMade)).1
    exact left rfl ((congrArg _ same).trans (not_not.mp fails))
  · rename_i started
    rw [started] at taken
    cases taken
    exact left rfl (not_not.mp fails)
  · exact absurd trivial fails

end Steps

/-- In the admitted runs no execution settles with its lease in the row, and among the next steps
with writing failures exactly those keep this that the guard admits. -/
structure ReleaseLaw (deployment : Deployment) (guard : State → Event → Prop) : Prop where
  released : ∀ s, (machine deployment).Reachable guard s → Released s
  sharp : ∀ s event t, (machine deployment).Reachable guard s → FailWrites s event →
    step deployment s event = some t → (Released t ↔ guard s event)

/-- Every execution releases its lease exactly while nothing fails between its claim and its `try`
block. -/
theorem executions_release (deployment : Deployment) : ReleaseLaw deployment SetUpRuns where
  released s reached := released_of_holding (holding_of_reachable reached)
  sharp s event t reached fails taken := by
    have holding := holding_of_reachable reached
    constructor
    · intro released
      refine ⟨fails, ?_⟩
      by_contra setUp
      cases event with
      | run x action =>
          obtain ⟨outcome, acted, rfl⟩ := Option.map_eq_some_iff.mp taken
          exact not_released_of_act setUp acted released
      | _ => exact setUp trivial
    · rintro ⟨_, setsUp⟩
      exact released_of_holding (holding_step holding fails setsUp taken)

/-- The state of the lease and the end of the first execution. -/
def State.ending (s : State) : Option LeaseToken × Bool × ProcessingStatus :=
  (s.rows.media.processingLeaseToken, (s.executions 0).settled, s.rows.media.processingStatus)

/-- The handler of the first attempt throws, and its execution puts the recording back. -/
theorem recording_released : ∃ s, (machine sampleDeployment).Reachable SetUpRuns s ∧
    s.ending = (none, true, .pending) ∧ Released s := by
  obtain ⟨s, reached, observed⟩ := (machine sampleDeployment).reachable_of_observed SetUpRuns
    State.ending (none, true, .pending)
    (toHandler 0 ++ [.run 0 (.handle (.error "FFMPEG_FAILED")), .run 0 (.fail .ok)])
    recordingStart_initial (by decide)
  exact ⟨s, reached, observed, (executions_release sampleDeployment).released s reached⟩

/-- The insert of the attempt row fails after the claim. The execution throws and keeps its
lease. -/
theorem recording_kept :
    ¬ ∀ s, (machine sampleDeployment).Reachable FailWrites s → Released s := by
  intro released
  obtain ⟨s, reached, observed⟩ := (machine sampleDeployment).reachable_of_observed FailWrites
    State.ending (some 0, true, .processing)
    [.deliver 0 recordingPayload 0, .run 0 (.claim .ok), .run 0 (.read true),
      .run 0 (.createAttempt .refused)] recordingStart_initial (by decide)
  simp only [State.ending, Prod.mk.injEq] at observed
  exact released s reached 0 observed.2.1 observed.1

end PostsMedia.Processing
