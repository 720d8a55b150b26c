import PostsMedia.Processing.Completion
import PostsMedia.Processing.Delivery

namespace PostsMedia.Processing

/-- The job payload and the attempt number of an execution that has not ended. -/
def Phase.delivery : Phase → Option (MediaJobPayloadV1 × Nat)
  | .claiming payload attemptsMade _ | .reading payload attemptsMade
  | .starting payload attemptsMade _ => some (payload, attemptsMade)
  | .preparing run | .downloading run | .handling run | .uploading run _ _ | .committing run _
  | .removing run _ _ | .completing run | .failing run _ => some (run.payload, run.attemptsMade)
  | .idle | .returned | .threw | .crashed => none

/-- The execution has claimed its generation. -/
def Phase.claimed : Phase → Bool
  | .idle | .claiming .. | .returned | .threw | .crashed => false
  | _ => true

theorem Phase.inFlight_iff (phase : Phase) : phase.inFlight = phase.delivery.isSome := by
  cases phase <;> rfl

section Frames

variable {rows : Rows} {generation : Nat} {token : LeaseToken} {now : Time}

/-- An operation on another generation changes nothing. -/
theorem Operation.run_of_foreign (operation : Operation)
    (foreign : rows.media.processingGeneration ≠ generation) :
    operation.run rows generation token now = (rows, false) := by
  cases operation <;> simp [run, Media.renewable, Media.guarded, foreign]

end Frames

variable {deployment : Deployment} {s : State} {x : ExecutionId} {payload : MediaJobPayloadV1}
variable {attemptsMade : Nat} {outcome : Outcome}

/-- A failure of this delivery uses up its job. -/
def LastAttempt (deployment : Deployment) (attemptsMade : Nat) : Prop :=
  deployment.mediaJobAttempts ≤ attemptsMade + 1

instance : Decidable (LastAttempt deployment attemptsMade) :=
  inferInstanceAs (Decidable (_ ≤ _))

/-- The statements that do not give up the job of a generation that still needs it. A claim finds
the lease free, the last attempt gets past the statements before the `try` block, and its `fail`
takes effect. -/
def Recoverable (deployment : Deployment) (s : State) : Event → Prop
  | .run x action =>
      match s.executions x, action with
      | .claiming payload attemptsMade asOf, .claim fate =>
          payload.generation = s.rows.media.processingGeneration →
            s.rows.media.processingStatus ≠ .completed →
            match fate with
            | .ok => s.rows.media.processingLeaseExpiresAt.all (fun expiry => expiry ≤ asOf) = true
            | .refused => s.rows.media.processingStatus = .failed ∨
                ¬ LastAttempt deployment attemptsMade
            | .unacknowledged => ¬ LastAttempt deployment attemptsMade
      | .reading payload attemptsMade, .read found =>
          payload.generation = s.rows.media.processingGeneration →
            found = true ∨ ¬ LastAttempt deployment attemptsMade
      | .starting payload attemptsMade _, .createAttempt fate =>
          payload.generation = s.rows.media.processingGeneration →
            fate = .ok ∨ ¬ LastAttempt deployment attemptsMade
      | .preparing run, .createWorkspace created =>
          run.payload.generation = s.rows.media.processingGeneration →
            created = true ∨ ¬ LastAttempt deployment run.attemptsMade
      | .failing run _, .fail fate =>
          run.payload.generation = s.rows.media.processingGeneration →
            s.rows.media.processingStatus ≠ .completed →
            fate ≠ .refused ∨ ¬ LastAttempt deployment run.attemptsMade
      | _, _ => True
  | _ => True

/-- The execution still owns its generation, or the generation is completed. -/
def Owns (rows : Rows) (x : ExecutionId) (payload : MediaJobPayloadV1) : Prop :=
  payload.generation = rows.media.processingGeneration →
    rows.media.processingLeaseToken = some x ∨ rows.media.processingStatus = .completed

/-- What one statement of a delivery does to the media and to its own delivery. -/
structure Turn (deployment : Deployment) (s : State) (x : ExecutionId)
    (payload : MediaJobPayloadV1) (attemptsMade : Nat) (outcome : Outcome) : Prop where
  same : SameMedia s.rows.media outcome.rows.media
  generation : outcome.rows.media.processingGeneration = s.rows.media.processingGeneration
  dispatches : outcome.rows.dispatches = s.rows.dispatches
  foreign : payload.generation ≠ s.rows.media.processingGeneration →
    outcome.rows.media = s.rows.media
  delivery : ∀ delivery, outcome.phase.delivery = some delivery → delivery = (payload, attemptsMade)
  owns : outcome.phase.claimed = true → Owns outcome.rows x payload
  ended : outcome.phase = .returned ∨ outcome.phase = .threw ∧ LastAttempt deployment attemptsMade →
    payload.generation = s.rows.media.processingGeneration →
    outcome.rows.media.processingStatus.finished = true
  started : outcome.phase ≠ .idle

/-- A statement that writes no media and goes on keeps its delivery. -/
theorem Turn.keep (media : outcome.rows.media = s.rows.media)
    (dispatches : outcome.rows.dispatches = s.rows.dispatches) (owns : Owns s.rows x payload)
    (delivery : outcome.phase.delivery = some (payload, attemptsMade)) :
    Turn deployment s x payload attemptsMade outcome where
  same := by rw [media]; exact .refl _
  generation := by rw [media]
  dispatches := dispatches
  foreign _ := media
  delivery other present := by
    rw [delivery] at present
    exact (Option.some.inj present).symm
  owns _ := by
    unfold Owns
    rw [media]
    exact owns
  ended past := by
    rcases past with returned | ⟨threw, _⟩
    · simp [returned, Phase.delivery] at delivery
    · simp [threw, Phase.delivery] at delivery
  started idle := by simp [idle, Phase.delivery] at delivery

/-- A statement that writes no media and ends its execution settles its generation or leaves
attempts over. -/
theorem Turn.stop (media : outcome.rows.media = s.rows.media)
    (dispatches : outcome.rows.dispatches = s.rows.dispatches)
    (phase : outcome.phase = .returned ∨ outcome.phase = .threw)
    (ended : outcome.phase = .returned ∨ LastAttempt deployment attemptsMade →
      payload.generation = s.rows.media.processingGeneration →
      s.rows.media.processingStatus.finished = true) :
    Turn deployment s x payload attemptsMade outcome where
  same := by rw [media]; exact .refl _
  generation := by rw [media]
  dispatches := dispatches
  foreign _ := media
  delivery delivery present := by
    rcases phase with same | same <;> simp [same, Phase.delivery] at present
  owns claimed := by
    rcases phase with same | same <;> simp [same, Phase.claimed] at claimed
  ended past current := by
    rw [media]
    exact ended (past.imp_right And.right) current
  started idle := by
    rcases phase with same | same <;> simp [same] at idle

theorem nextUpload_delivery (run : Run) (upload : Upload) :
    (nextUpload run upload).delivery = some (run.payload, run.attemptsMade) := by
  unfold nextUpload
  split <;> rfl

/-- A throw before the `try` block leaves attempts over unless the media is finished. -/
theorem Turn.throws (media : outcome.rows.media = s.rows.media)
    (dispatches : outcome.rows.dispatches = s.rows.dispatches) (phase : outcome.phase = .threw)
    (excuse : payload.generation = s.rows.media.processingGeneration →
      s.rows.media.processingStatus.finished = true ∨ ¬ LastAttempt deployment attemptsMade) :
    Turn deployment s x payload attemptsMade outcome := by
  apply Turn.stop media dispatches (.inr phase)
  intro past current
  have last : LastAttempt deployment attemptsMade := past.resolve_left (by simp [phase])
  exact (excuse current).resolve_right (not_not_intro last)

/-- A claim that finds the lease free is a turn wherever it leads, unless it ends the last
attempt. -/
theorem Turn.claim {asOf : Time} {next : Phase}
    (matched : s.rows.media.claimable payload.generation asOf = true)
    (delivery : ∀ delivery, next.delivery = some delivery → delivery = (payload, attemptsMade))
    (ended : next = .returned ∨ next = .threw ∧ LastAttempt deployment attemptsMade → False)
    (started : next ≠ .idle) :
    Turn deployment s x payload attemptsMade
      (s.writing (claimRows deployment s x payload asOf) next) := by
  have current : s.rows.media.processingGeneration = payload.generation := by
    simp only [Media.claimable, Bool.and_eq_true, decide_eq_true_eq] at matched
    exact matched.1.1
  have rows : claimRows deployment s x payload asOf = { s.rows with
      media := s.rows.media.claimed (mediaJobId payload.mediaId payload.generation)
        deployment.processingLeaseSeconds x asOf } := by
    simp only [claimRows, PostsMedia.Processing.claim, if_pos matched]
  rw [rows]
  exact
    { same := ⟨rfl, rfl, rfl, rfl⟩
      generation := rfl
      dispatches := rfl
      foreign := fun other => absurd current.symm other
      delivery := delivery
      owns := fun _ _ => .inl rfl
      ended := fun past => (ended past).elim
      started := started }

/-- A claim that finds the lease taken or another generation changes nothing. -/
theorem claimRows_of_taken {asOf : Time}
    (taken : s.rows.media.claimable payload.generation asOf ≠ true) :
    claimRows deployment s x payload asOf = s.rows := by
  simp only [claimRows, PostsMedia.Processing.claim, if_neg taken]

/-- A free lease that the claim did not find belongs to another generation or a finished media. -/
theorem finished_of_taken {asOf : Time}
    (taken : s.rows.media.claimable payload.generation asOf = false)
    (current : payload.generation = s.rows.media.processingGeneration)
    (free : s.rows.media.processingStatus ≠ .completed →
      s.rows.media.processingLeaseExpiresAt.all (fun expiry => expiry ≤ asOf) = true) :
    s.rows.media.processingStatus.finished = true := by
  by_cases completed : s.rows.media.processingStatus = .completed
  · simp [completed, ProcessingStatus.finished]
  · simp [Media.claimable, current, completed, free completed] at taken

/-- The publication completes the generation of its delivery. -/
theorem Turn.publish (invariant : Invariant deployment s) {run : Run}
    {variants : List MediaVariant} {metadata : Option Json} {objects : ObjectRef → Option Bytes}
    {publications : List Publication} {next : Phase}
    (matched : s.rows.media.guarded run.payload.generation x = true)
    (delivery : next.delivery = some (run.payload, run.attemptsMade)) :
    Turn deployment s x run.payload run.attemptsMade
      ⟨run.rows (.publish run.attemptId variants metadata) s x, objects, publications, next⟩ := by
  have current : s.rows.media.processingGeneration = run.payload.generation := by
    simp only [Media.guarded, Bool.and_eq_true, decide_eq_true_eq] at matched
    exact matched.1
  have progress := progress_run (deployment.attemptName x)
    (.publish run.attemptId variants metadata) invariant.settled.leased run.payload.generation x
    s.now
  have completed : (run.rows (.publish run.attemptId variants metadata) s
      x).media.processingStatus = .completed := by
    simp [Run.rows, Operation.run, matched, Media.completed]
  refine ⟨progress.same, (Operation.run_frame _).1, (Operation.run_frame _).2, ?_, ?_, ?_, ?_, ?_⟩
  · exact fun other => absurd current.symm other
  · intro other present
    exact (Option.some.inj (delivery.symm.trans present)).symm
  · exact fun _ _ => .inr completed
  · rintro (past | ⟨past, _⟩) <;> simp [show next = _ from past, Phase.delivery] at delivery
  · intro idle
    simp [show next = _ from idle, Phase.delivery] at delivery

/-- A final `fail` that takes effect ends the generation of its delivery. -/
theorem Turn.fail (invariant : Invariant deployment s) {run : Run} (message : String)
    (owns : Owns s.rows x run.payload) :
    Turn deployment s x run.payload run.attemptsMade
      (s.writing (run.rows (run.failure deployment message) s x) .threw) := by
  have progress := progress_run (deployment.attemptName x) (run.failure deployment message)
    invariant.settled.leased run.payload.generation x s.now
  refine ⟨progress.same, (Operation.run_frame _).1, (Operation.run_frame _).2, ?_, ?_, ?_, ?_, ?_⟩
  · intro other
    simp only [State.writing, Run.rows, Operation.run_of_foreign _ (Ne.symm other)]
  · intro _ delivered
    cases delivered
  · intro claimed
    cases claimed
  · intro past current
    have last : LastAttempt deployment run.attemptsMade := by
      rcases past with returned | ⟨_, last⟩
      · cases returned
      · exact last
    have final : decide (deployment.mediaJobAttempts ≤ run.attemptsMade + 1) = true :=
      decide_eq_true last
    rcases owns current with held | completed
    · simp [State.writing, Run.rows, Run.failure, Operation.run, Media.guarded, held, current,
        final, Media.failed, ProcessingStatus.finished]
    · have lost := unguarded_of_completed invariant.settled.leased completed x
      simp only [State.writing, Run.rows, Operation.run_of_lost _ lost]
      simp [completed, ProcessingStatus.finished]
  · intro idle
    cases idle

/-- Every statement of a delivery that still owns its generation is a turn of it. -/
theorem turn_of_act (invariant : Invariant deployment s)
    (delivery : (s.executions x).delivery = some (payload, attemptsMade))
    (owns : (s.executions x).claimed = true → Owns s.rows x payload) {action : Action}
    (recoverable : Recoverable deployment s (.run x action))
    (taken : act deployment s x action (s.executions x) = some outcome) :
    Turn deployment s x payload attemptsMade outcome := by
  obtain ⟨phase, started⟩ : ∃ phase, s.executions x = phase := ⟨_, rfl⟩
  simp only [Recoverable, started] at recoverable
  rw [started] at delivery owns taken
  have statement := statement_of_act taken
  cases statement with
  | claimRefused =>
      cases delivery
      apply Turn.throws rfl rfl rfl
      intro current
      by_cases completed : s.rows.media.processingStatus = .completed
      · exact .inl (by simp [completed, ProcessingStatus.finished])
      · exact (recoverable current completed).imp_left fun failed => by
          simp [failed, ProcessingStatus.finished]
  | claim payload attemptsMade asOf matched =>
      cases delivery
      apply Turn.claim matched
      · exact fun _ present => (Option.some.inj present).symm
      · rintro (past | ⟨past, _⟩) <;> cases past
      · intro idle
        cases idle
  | claimUnacknowledged payload attemptsMade asOf =>
      cases delivery
      by_cases matched : s.rows.media.claimable payload.generation asOf = true
      · have current : payload.generation = s.rows.media.processingGeneration ∧
            s.rows.media.processingStatus ≠ .completed := by
          simp only [Media.claimable, Bool.and_eq_true, decide_eq_true_eq] at matched
          exact ⟨matched.1.1.symm, matched.1.2⟩
        apply Turn.claim matched
        · intro _ delivered
          cases delivered
        · rintro (past | ⟨_, last⟩)
          · cases past
          · exact recoverable current.1 current.2 last
        · intro idle
          cases idle
      · rw [claimRows_of_taken matched]
        apply Turn.throws rfl rfl rfl
        intro current
        by_cases completed : s.rows.media.processingStatus = .completed
        · exact .inl (by simp [completed, ProcessingStatus.finished])
        · exact .inr (recoverable current completed)
  | leave payload attemptsMade asOf lost =>
      cases delivery
      apply Turn.stop rfl rfl (.inl rfl)
      intro _ current
      exact finished_of_taken lost current (recoverable current)
  | read => exact .keep rfl rfl (owns rfl) delivery
  | readLost | attemptRefused | workspaceLost =>
      cases delivery
      apply Turn.throws rfl rfl rfl
      exact fun current => .inr ((recoverable current).resolve_left (by simp))
  | attempt payload attemptsMade media =>
      exact .keep (createAttempt_frame _ _).1 (createAttempt_frame _ _).2 (owns rfl) delivery
  | attemptUnacknowledged payload attemptsMade media =>
      cases delivery
      apply Turn.throws (createAttempt_frame _ _).1 (createAttempt_frame _ _).2 rfl
      exact fun current => .inr ((recoverable current).resolve_left (by simp))
  | handle run result files =>
      exact .keep rfl rfl (owns rfl) ((nextUpload_delivery ..).trans delivery)
  | verify run upload =>
      exact .keep rfl rfl (owns rfl) ((nextUpload_delivery ..).trans delivery)
  | publish run upload variants error matched =>
      cases delivery
      exact .publish invariant matched rfl
  | publishUnacknowledged run upload variants error matched =>
      cases delivery
      exact .publish invariant matched rfl
  | complete run error =>
      cases delivery
      -- The publication has completed the media, so the second `complete` finds no lease.
      have done := (invariant.coherent x).published (by rw [started]; rfl)
      rw [invariant.completing_rows started]
      exact .stop rfl rfl (.inl rfl) fun _ _ => by simp [done, ProcessingStatus.finished]
  | completeUnacknowledged run error =>
      rw [invariant.completing_rows started]
      exact .keep rfl rfl (owns rfl) delivery
  | fail run message =>
      cases delivery
      exact .fail invariant message (owns rfl)
  | failRefused run message =>
      cases delivery
      apply Turn.throws rfl rfl rfl
      intro current
      by_cases completed : s.rows.media.processingStatus = .completed
      · exact .inl (by simp [completed, ProcessingStatus.finished])
      · exact .inr ((recoverable current completed).resolve_left (by simp))
  | _ => exact .keep rfl rfl (owns rfl) delivery

end PostsMedia.Processing
