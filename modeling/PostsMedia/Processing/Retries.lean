import Mathlib.Data.List.Basic
import PostsMedia.Processing.Completion
import PostsMedia.Processing.Refinement
import PostsMedia.Queues.Jobs

namespace PostsMedia.Processing

/-- The workers with the configuration of their queues. Both read the same number of attempts. -/
structure QueueWorkers extends Deployment where
  configuration : QueueRuntimeConfiguration
  sameAttempts : mediaJobAttempts = configuration.mediaJobAttempts

/-- One run of a job with the times of its statements. A handler that returns may have published
its variants. -/
structure JobRun where
  token : ExecutionId
  claimedAt : Time
  renewals : List Time
  finishedAt : Time
  handler : Except String (Option (List MediaVariant × Option Json))

/-- The rows of one media and the job of its generation. -/
structure JobState where
  rows : Rows
  job : Job

section Execution

variable (deployment : Deployment) (payload : MediaJobPayloadV1) (attemptsMade : Nat)
variable (run : JobRun)

/-- The timer of `execute` while its handler runs. -/
def renewAll (rows : Rows) : Rows :=
  run.renewals.foldl (fun rows asOf =>
    ((Operation.renew deployment.processingLeaseSeconds).run rows payload.generation run.token
      asOf).1) rows

/-- A handler throws its message, or it returns. A lost lease makes `publish` throw. -/
def handle (attemptId : String) (rows : Rows) : Rows × Except String Unit :=
  match run.handler with
  | .error message => (rows, .error message)
  | .ok none => (rows, .ok ())
  | .ok (some (variants, metadata)) =>
      let (after, published) := (Operation.publish attemptId variants metadata).call rows
        payload.generation run.token run.finishedAt
      (after, published.map fun _ => ())

/-- `ProcessorOrchestratorService.execute` when no statement of its own fails. -/
def execute (rows : Rows) : Rows × Except String Unit :=
  match claim rows payload.generation (mediaJobId payload.mediaId payload.generation)
      deployment.processingLeaseSeconds run.token run.claimedAt with
  | (rows, false) => (rows, .ok ())
  | (rows, true) =>
      let (rows, attempt) :=
        createAttempt rows (newAttempt deployment run.token payload attemptsMade)
      match handle payload run attempt.id (renewAll deployment payload run rows) with
      | (rows, .ok ()) =>
          (((Operation.complete attempt.id).run rows payload.generation run.token
            run.finishedAt).1, .ok ())
      | (rows, .error message) =>
          let final := decide (deployment.mediaJobAttempts ≤ attemptsMade + 1)
          (((Operation.fail attempt.id final "PROCESSING_FAILED" message).run rows
            payload.generation run.token run.finishedAt).1, .error "PROCESSING_FAILED")

end Execution

section Jobs

variable (workers : QueueWorkers) (payload : MediaJobPayloadV1) (runs : Nat → JobRun)

/-- The queue runs a waiting job and learns its end. A finished job is not run again. -/
def deliver (run : JobRun) (state : JobState) : JobState :=
  match state.job with
  | .waiting payload attemptsMade =>
      match execute workers.toDeployment payload attemptsMade run state.rows with
      | (rows, .ok ()) => ⟨rows, .completed⟩
      | (rows, .error _) => ⟨rows, .throw
          (queueOptionsFor payload.mediaType workers.configuration).defaultJobOptions.attempts
          payload attemptsMade⟩
  | _ => state

/-- The rows and the job after this many runs. -/
def after (start : Rows) : Nat → JobState
  | 0 => ⟨start, .waiting payload 0⟩
  | count + 1 => deliver workers (runs count) (after start count)

end Jobs

/-- No run of the pending generation has begun. -/
structure Starting (start : Rows) (generation : Nat) : Prop where
  status : start.media.processingStatus = .pending
  current : start.media.processingGeneration = generation
  leased : start.media.Leased
  unattempted : ∀ attempt ∈ start.attempts, attempt.generation ≠ generation

/-- The handler of a run throws. -/
def JobRun.Fails (run : JobRun) : Prop := ∃ message, run.handler = .error message

/-- The handler of a run returns. -/
def JobRun.Succeeds (run : JobRun) : Prop := ∃ published, run.handler = .ok published

/-- The attempts of a generation with their numbers. -/
def attemptHistory (rows : Rows) (generation : Nat) : List (Nat × ProcessingAttemptStatus) :=
  (rows.attempts.filter (·.generation = generation)).map fun attempt =>
    (attempt.bullAttemptNumber, attempt.status)

/-- The first attempts, all of them failed. -/
def failures (count : Nat) : List (Nat × ProcessingAttemptStatus) :=
  (List.range count).map fun index => (index + 1, .failed)

/-- The generation goes on without a lease and without a new dispatch. -/
structure Unleased (start : Rows) (generation : Nat) (rows : Rows) : Prop where
  generation : rows.media.processingGeneration = generation
  token : rows.media.processingLeaseToken = none
  expiry : rows.media.processingLeaseExpiresAt = none
  job : rows.media.activeJobId = none
  dispatches : rows.dispatches = start.dispatches

/-- Between two runs. -/
structure Between (start : Rows) (payload : MediaJobPayloadV1) (count : Nat)
    (state : JobState) : Prop extends Unleased start payload.generation state.rows where
  waiting : state.job = .waiting payload count
  status : state.rows.media.processingStatus = .pending
  claimable : ∀ now, state.rows.media.claimable payload.generation now = true
  history : attemptHistory state.rows payload.generation = failures count

/-- After the run that succeeded. -/
structure Succeeded (start : Rows) (payload : MediaJobPayloadV1) (count : Nat)
    (state : JobState) : Prop extends Unleased start payload.generation state.rows where
  ended : state.job = .completed
  status : state.rows.media.processingStatus = .completed
  progress : state.rows.media.progress = 100
  errorCode : state.rows.media.lastErrorCode = none
  errorMessage : state.rows.media.lastErrorMessage = none
  history : attemptHistory state.rows payload.generation =
    failures count ++ [(count + 1, .completed)]

/-- After the last run has failed. -/
structure Exhausted (start : Rows) (payload : MediaJobPayloadV1) (count : Nat)
    (state : JobState) : Prop extends Unleased start payload.generation state.rows where
  ended : state.job = .failed
  status : state.rows.media.processingStatus = .failed
  history : attemptHistory state.rows payload.generation = failures count

/-- What the runs of one job lead to, whatever its handlers do. -/
structure AutomaticRetries (workers : QueueWorkers) (payload : MediaJobPayloadV1)
    (runs : Nat → JobRun) (start : Rows) : Prop where
  between : ∀ count < workers.mediaJobAttempts, (∀ earlier < count, (runs earlier).Fails) →
    Between start payload count (after workers payload runs start count)
  succeeds : ∀ count < workers.mediaJobAttempts, (∀ earlier < count, (runs earlier).Fails) →
    (runs count).Succeeds → ∀ later > count,
      Succeeded start payload count (after workers payload runs start later)
  exhausts : (∀ earlier < workers.mediaJobAttempts, (runs earlier).Fails) →
    ∀ later ≥ workers.mediaJobAttempts,
      Exhausted start payload workers.mediaJobAttempts (after workers payload runs start later)

section Run

variable {deployment : Deployment} {payload : MediaJobPayloadV1} {attemptsMade : Nat}
variable {run : JobRun} {rows : Rows}

/-- Renewals move nothing but the end of the lease. -/
theorem renewAll_eq (deployment : Deployment) (payload : MediaJobPayloadV1) (run : JobRun)
    (rows : Rows) : ∃ expiry, renewAll deployment payload run rows =
      { rows with media := { rows.media with processingLeaseExpiresAt := expiry } } := by
  unfold renewAll
  induction run.renewals generalizing rows with
  | nil => exact ⟨rows.media.processingLeaseExpiresAt, rfl⟩
  | cons asOf rest ih =>
      rw [List.foldl_cons]
      obtain ⟨expiry, renewed⟩ := ih ((Operation.renew deployment.processingLeaseSeconds).run rows
        payload.generation run.token asOf).1
      refine ⟨expiry, renewed.trans ?_⟩
      simp only [Operation.run]
      split <;> rfl

/-- The first run of a number inserts its attempt. -/
theorem createAttempt_new {created : ProcessingAttempt}
    (unused : ∀ attempt ∈ rows.attempts, attempt.generation = created.generation →
      attempt.bullAttemptNumber ≠ created.bullAttemptNumber) :
    createAttempt rows created =
      ({ rows with attempts := rows.attempts ++ [created] }, created) := by
  have missing : rows.attempts.find? (fun attempt =>
      attempt.generation = created.generation &&
        attempt.bullAttemptNumber = created.bullAttemptNumber) = none := by
    rw [List.find?_eq_none]
    intro attempt member
    simp only [Bool.and_eq_true, decide_eq_true_eq, not_and]
    exact unused attempt member
  unfold createAttempt
  rw [missing]

/-- An update reaches only the attempt that was inserted last. -/
theorem updateAttempt_new {attempts : List ProcessingAttempt} {created : ProcessingAttempt}
    (change : ProcessingAttempt → ProcessingAttempt)
    (apart : ∀ attempt ∈ attempts, attempt.generation = created.generation →
      attempt.id ≠ created.id) :
    updateAttempt (attempts ++ [created]) created.id created.generation change =
      attempts ++ [change created] := by
  have kept : updateAttempt attempts created.id created.generation change = attempts :=
    updateAttempt_absent change apart
  unfold updateAttempt at kept ⊢
  rw [List.map_append, kept]
  simp

/-- The run finds its media free and its attempt number unused. -/
structure Ready (deployment : Deployment) (payload : MediaJobPayloadV1) (attemptsMade : Nat)
    (run : JobRun) (rows : Rows) : Prop where
  claimable : rows.media.claimable payload.generation run.claimedAt = true
  unused : ∀ attempt ∈ rows.attempts, attempt.generation = payload.generation →
    attempt.bullAttemptNumber ≠ attemptsMade + 1
  unnamed : ∀ attempt ∈ rows.attempts, attempt.generation = payload.generation →
    attempt.id ≠ deployment.attemptName run.token

/-- The media while the handler of a run works. -/
def working (deployment : Deployment) (payload : MediaJobPayloadV1) (run : JobRun)
    (media : Media) : Media :=
  media.claimed (mediaJobId payload.mediaId payload.generation)
    deployment.processingLeaseSeconds run.token run.claimedAt

theorem Ready.generation (ready : Ready deployment payload attemptsMade run rows) :
    rows.media.processingGeneration = payload.generation := by
  have matched := ready.claimable
  simp only [Media.claimable, Bool.and_eq_true, decide_eq_true_eq] at matched
  exact matched.1.1

/-- The lease of the run is still its own when its handler has ended. -/
theorem Ready.guarded (ready : Ready deployment payload attemptsMade run rows)
    (expiry : Option Time) :
    ({ working deployment payload run rows.media with
        processingLeaseExpiresAt := expiry } : Media).guarded payload.generation run.token =
      true := by
  simp [Media.guarded, working, Media.claimed, ready.generation]

/-- Up to its handler the run has claimed its media and inserted its attempt. -/
theorem execute_eq (ready : Ready deployment payload attemptsMade run rows) :
    ∃ expiry, execute deployment payload attemptsMade run rows =
      match handle payload run (deployment.attemptName run.token)
        { rows with
          media := { working deployment payload run rows.media with
            processingLeaseExpiresAt := expiry }
          attempts := rows.attempts ++
            [newAttempt deployment run.token payload attemptsMade] } with
      | (rows, .ok ()) =>
          (((Operation.complete (deployment.attemptName run.token)).run rows payload.generation
            run.token run.finishedAt).1, .ok ())
      | (rows, .error message) =>
          (((Operation.fail (deployment.attemptName run.token)
            (decide (deployment.mediaJobAttempts ≤ attemptsMade + 1)) "PROCESSING_FAILED"
            message).run rows payload.generation run.token run.finishedAt).1,
            .error "PROCESSING_FAILED") := by
  have inserted : createAttempt { rows with media := working deployment payload run rows.media }
      (newAttempt deployment run.token payload attemptsMade) =
        ({ rows with
          media := working deployment payload run rows.media
          attempts := rows.attempts ++ [newAttempt deployment run.token payload attemptsMade] },
          newAttempt deployment run.token payload attemptsMade) := createAttempt_new ready.unused
  obtain ⟨expiry, renewed⟩ := renewAll_eq deployment payload run
    { rows with
      media := working deployment payload run rows.media
      attempts := rows.attempts ++ [newAttempt deployment run.token payload attemptsMade] }
  refine ⟨expiry, ?_⟩
  unfold working at inserted renewed
  simp only [execute, claim, ready.claimable, if_true, inserted, renewed]
  rfl

/-- A run whose handler throws records one failed attempt. -/
theorem execute_fails (ready : Ready deployment payload attemptsMade run rows) {message : String}
    (fails : run.handler = .error message) :
    execute deployment payload attemptsMade run rows =
      ({ rows with
        media := (working deployment payload run rows.media).failed
          (decide (deployment.mediaJobAttempts ≤ attemptsMade + 1)) "PROCESSING_FAILED" message
        attempts := rows.attempts ++ [failAttempt "PROCESSING_FAILED" message run.finishedAt
          (newAttempt deployment run.token payload attemptsMade)] },
        .error "PROCESSING_FAILED") := by
  obtain ⟨expiry, ran⟩ := execute_eq ready
  have updated : updateAttempt
      (rows.attempts ++ [newAttempt deployment run.token payload attemptsMade])
      (deployment.attemptName run.token) payload.generation
      (failAttempt "PROCESSING_FAILED" message run.finishedAt) =
        rows.attempts ++ [failAttempt "PROCESSING_FAILED" message run.finishedAt
          (newAttempt deployment run.token payload attemptsMade)] :=
    updateAttempt_new _ ready.unnamed
  simp only [ran, handle, fails, Operation.run, ready.guarded expiry, if_true, updated]
  rfl

/-- A publication has given the lease up. -/
theorem completed_unguarded (media : Media) (metadata : Option Json) (now : Time)
    (generation : Nat) (token : LeaseToken) :
    (media.completed metadata now).guarded generation token = false := by
  simp [Media.guarded, Media.completed]

/-- A run whose handler returns records one completed attempt, published or not. -/
theorem execute_succeeds (ready : Ready deployment payload attemptsMade run rows)
    (succeeds : run.Succeeds) : ∃ variants metadata,
    execute deployment payload attemptsMade run rows =
      ({ rows with
        media := (working deployment payload run rows.media).completed metadata run.finishedAt
        variants := variants
        attempts := rows.attempts ++ [completeAttempt run.finishedAt
          (newAttempt deployment run.token payload attemptsMade)] }, .ok ()) := by
  obtain ⟨expiry, ran⟩ := execute_eq ready
  obtain ⟨published, returned⟩ := succeeds
  have updated : updateAttempt
      (rows.attempts ++ [newAttempt deployment run.token payload attemptsMade])
      (deployment.attemptName run.token) payload.generation (completeAttempt run.finishedAt) =
        rows.attempts ++ [completeAttempt run.finishedAt
          (newAttempt deployment run.token payload attemptsMade)] :=
    updateAttempt_new _ ready.unnamed
  cases published with
  | none =>
      refine ⟨rows.variants, none, ?_⟩
      simp only [ran, handle, returned, Operation.run, ready.guarded expiry, if_true, updated]
      rfl
  | some published =>
      obtain ⟨variants, metadata⟩ := published
      refine ⟨upsertVariants rows.variants variants, metadata, ?_⟩
      simp only [ran, handle, returned, Operation.call, Operation.run, ready.guarded expiry,
        if_true, updated, Except.map, completed_unguarded, Bool.false_eq_true, if_false]
      rfl

end Run

section Runs

variable {workers : QueueWorkers} {payload : MediaJobPayloadV1} {runs : Nat → JobRun}
variable {start : Rows} {count : Nat} {state : JobState} {tried : List ProcessingAttempt}

/-- The attempts that the first runs have left. -/
structure Tried (workers : QueueWorkers) (payload : MediaJobPayloadV1) (runs : Nat → JobRun)
    (count : Nat) (tried : List ProcessingAttempt) : Prop where
  history : (tried.map fun attempt => (attempt.bullAttemptNumber, attempt.status)) =
    failures count
  generation : ∀ attempt ∈ tried, attempt.generation = payload.generation
  names : ∀ attempt ∈ tried, ∃ earlier < count,
    attempt.id = workers.attemptName (runs earlier).token

theorem failures_succ (count : Nat) :
    failures (count + 1) = failures count ++ [(count + 1, .failed)] := by
  simp [failures, List.range_succ]

/-- The numbers of the earlier attempts are used up. -/
theorem Tried.number (used : Tried workers payload runs count tried)
    {attempt : ProcessingAttempt} (member : attempt ∈ tried) :
    attempt.bullAttemptNumber ≤ count := by
  have listed : (attempt.bullAttemptNumber, attempt.status) ∈ failures count := by
    rw [← used.history]
    exact List.mem_map_of_mem member
  obtain ⟨index, inside, same⟩ := List.mem_map.mp listed
  have earlier : index < count := List.mem_range.mp inside
  have number : index + 1 = attempt.bullAttemptNumber := congrArg Prod.fst same
  omega

/-- The attempts of the generation are those of its runs. -/
theorem attemptHistory_append {rows : Rows} (starting : Starting start payload.generation)
    (generation : ∀ attempt ∈ tried, attempt.generation = payload.generation)
    (attempts : rows.attempts = start.attempts ++ tried) :
    attemptHistory rows payload.generation =
      tried.map fun attempt => (attempt.bullAttemptNumber, attempt.status) := by
  have others : start.attempts.filter (·.generation = payload.generation) = [] := by
    rw [List.filter_eq_nil_iff]
    intro attempt member
    simpa using starting.unattempted attempt member
  have own : tried.filter (·.generation = payload.generation) = tried := by
    rw [List.filter_eq_self]
    intro attempt member
    simpa using generation attempt member
  rw [attemptHistory, attempts, List.filter_append, others, own, List.nil_append]

/-- The job waits after its first runs have failed. -/
structure Retrying (workers : QueueWorkers) (payload : MediaJobPayloadV1) (runs : Nat → JobRun)
    (start : Rows) (count : Nat) (state : JobState) : Prop
    extends Unleased start payload.generation state.rows where
  waiting : state.job = .waiting payload count
  status : state.rows.media.processingStatus = .pending
  attempts : ∃ tried, state.rows.attempts = start.attempts ++ tried ∧
    Tried workers payload runs count tried

theorem Retrying.claimable (retrying : Retrying workers payload runs start count state)
    (now : Time) : state.rows.media.claimable payload.generation now = true := by
  simp [Media.claimable, retrying.generation, retrying.status, retrying.expiry]

theorem Retrying.between (starting : Starting start payload.generation)
    (retrying : Retrying workers payload runs start count state) :
    Between start payload count state := by
  obtain ⟨tried, attempts, used⟩ := retrying.attempts
  refine ⟨retrying.toUnleased, retrying.waiting, retrying.status, retrying.claimable, ?_⟩
  rw [attemptHistory_append starting used.generation attempts, used.history]

/-- The next run has a number and a name of its own. -/
theorem Retrying.ready (starting : Starting start payload.generation)
    (distinct : Function.Injective fun count => (runs count).token)
    (retrying : Retrying workers payload runs start count state) :
    Ready workers.toDeployment payload count (runs count) state.rows := by
  obtain ⟨tried, attempts, used⟩ := retrying.attempts
  have own (attempt : ProcessingAttempt) (member : attempt ∈ state.rows.attempts)
      (generation : attempt.generation = payload.generation) : attempt ∈ tried := by
    rw [attempts, List.mem_append] at member
    rcases member with other | own
    · exact absurd generation (starting.unattempted attempt other)
    · exact own
  refine ⟨retrying.claimable _, ?_, ?_⟩
  · intro attempt member generation
    have number : attempt.bullAttemptNumber ≤ count := used.number (own attempt member generation)
    omega
  · intro attempt member generation same
    obtain ⟨earlier, before, name⟩ := used.names attempt (own attempt member generation)
    have token : (runs earlier).token = (runs count).token :=
      workers.attemptName_injective _ _ (name.symm.trans same)
    have index : earlier = count := distinct token
    omega

/-- The attempt of the next run joins the earlier ones. -/
theorem Tried.push (used : Tried workers payload runs count tried)
    (attempt : ProcessingAttempt) (number : attempt.bullAttemptNumber = count + 1)
    (status : attempt.status = .failed) (generation : attempt.generation = payload.generation)
    (name : attempt.id = workers.attemptName (runs count).token) :
    Tried workers payload runs (count + 1) (tried ++ [attempt]) := by
  refine ⟨?_, ?_, ?_⟩
  · rw [List.map_append, used.history, failures_succ, List.map_singleton, number, status]
  · intro other member
    rcases List.mem_append.mp member with earlier | last
    · exact used.generation other earlier
    · rw [List.mem_singleton.mp last, generation]
  · intro other member
    rcases List.mem_append.mp member with earlier | last
    · obtain ⟨index, before, name'⟩ := used.names other earlier
      exact ⟨index, Nat.lt_succ_of_lt before, name'⟩
    · exact ⟨count, Nat.lt_add_one count, by rw [List.mem_singleton.mp last, name]⟩

/-- A failed run leaves one more failed attempt. The last one fails the media. -/
theorem Retrying.deliver_fails (starting : Starting start payload.generation)
    (distinct : Function.Injective fun count => (runs count).token)
    (retrying : Retrying workers payload runs start count state) (fails : (runs count).Fails) :
    Unleased start payload.generation (deliver workers (runs count) state).rows ∧
      (deliver workers (runs count) state).job = .throw workers.mediaJobAttempts payload count ∧
      (deliver workers (runs count) state).rows.media.processingStatus =
        (if workers.mediaJobAttempts ≤ count + 1 then .failed else .pending) ∧
      ∃ tried, (deliver workers (runs count) state).rows.attempts = start.attempts ++ tried ∧
        Tried workers payload runs (count + 1) tried := by
  obtain ⟨message, thrown⟩ := fails
  obtain ⟨tried, attempts, used⟩ := retrying.attempts
  have ran := execute_fails (retrying.ready starting distinct) thrown
  have next : deliver workers (runs count) state =
      ⟨{ state.rows with
        media := (working workers.toDeployment payload (runs count) state.rows.media).failed
          (decide (workers.mediaJobAttempts ≤ count + 1)) "PROCESSING_FAILED" message
        attempts := state.rows.attempts ++ [failAttempt "PROCESSING_FAILED" message
          (runs count).finishedAt
          (newAttempt workers.toDeployment (runs count).token payload count)] },
        .throw workers.mediaJobAttempts payload count⟩ := by
    simp only [deliver, retrying.waiting, ran, queueOptionsFor, workers.sameAttempts]
  rw [next]
  refine ⟨⟨retrying.generation, rfl, rfl, rfl, retrying.dispatches⟩, rfl, ?_, ?_⟩
  · simp [Media.failed]
  · have pushed : Tried workers payload runs (count + 1)
        (tried ++ [failAttempt "PROCESSING_FAILED" message (runs count).finishedAt
          (newAttempt workers.toDeployment (runs count).token payload count)]) :=
      used.push _ rfl rfl rfl rfl
    refine ⟨_, ?_, pushed⟩
    rw [← List.append_assoc, ← attempts]

theorem Retrying.next (starting : Starting start payload.generation)
    (distinct : Function.Injective fun count => (runs count).token)
    (retrying : Retrying workers payload runs start count state) (fails : (runs count).Fails)
    (left : count + 1 < workers.mediaJobAttempts) :
    Retrying workers payload runs start (count + 1) (deliver workers (runs count) state) := by
  obtain ⟨unleased, job, status, attempts⟩ := retrying.deliver_fails starting distinct fails
  have more : ¬ workers.mediaJobAttempts ≤ count + 1 := Nat.not_le_of_lt left
  rw [if_neg more] at status
  rw [Job.throw, if_neg more] at job
  exact ⟨unleased, job, status, attempts⟩

theorem Retrying.exhausted (starting : Starting start payload.generation)
    (distinct : Function.Injective fun count => (runs count).token)
    (retrying : Retrying workers payload runs start count state) (fails : (runs count).Fails)
    (last : count + 1 = workers.mediaJobAttempts) :
    Exhausted start payload (count + 1) (deliver workers (runs count) state) := by
  obtain ⟨unleased, job, status, tried, attempts, used⟩ :=
    retrying.deliver_fails starting distinct fails
  rw [if_pos (Nat.le_of_eq last.symm)] at status
  rw [Job.throw, if_pos (Nat.le_of_eq last.symm)] at job
  refine ⟨unleased, job, status, ?_⟩
  rw [attemptHistory_append starting used.generation attempts, used.history]

theorem Retrying.succeeded (starting : Starting start payload.generation)
    (distinct : Function.Injective fun count => (runs count).token)
    (retrying : Retrying workers payload runs start count state)
    (succeeds : (runs count).Succeeds) :
    Succeeded start payload count (deliver workers (runs count) state) := by
  obtain ⟨tried, attempts, used⟩ := retrying.attempts
  obtain ⟨variants, metadata, ran⟩ :=
    execute_succeeds (retrying.ready starting distinct) succeeds
  have next : deliver workers (runs count) state =
      ⟨{ state.rows with
        media := (working workers.toDeployment payload (runs count) state.rows.media).completed
          metadata (runs count).finishedAt
        variants := variants
        attempts := state.rows.attempts ++ [completeAttempt (runs count).finishedAt
          (newAttempt workers.toDeployment (runs count).token payload count)] }, .completed⟩ := by
    simp only [deliver, retrying.waiting, ran]
  rw [next]
  refine ⟨⟨retrying.generation, rfl, rfl, rfl, retrying.dispatches⟩, rfl, rfl, rfl, rfl, rfl, ?_⟩
  have generations : ∀ attempt ∈ tried ++ [completeAttempt (runs count).finishedAt
      (newAttempt workers.toDeployment (runs count).token payload count)],
      attempt.generation = payload.generation := by
    intro attempt member
    rcases List.mem_append.mp member with earlier | last
    · exact used.generation attempt earlier
    · rw [List.mem_singleton.mp last]
      rfl
  rw [attemptHistory_append starting generations
    (by rw [← List.append_assoc, ← attempts]), List.map_append, used.history]
  rfl

/-- The invariant of the runs before the first success. -/
theorem retrying_after (starting : Starting start payload.generation)
    (distinct : Function.Injective fun count => (runs count).token)
    (left : count < workers.mediaJobAttempts) (fails : ∀ earlier < count, (runs earlier).Fails) :
    Retrying workers payload runs start count (after workers payload runs start count) := by
  induction count with
  | zero =>
      have unleased : start.media.processingStatus ≠ .processing := by simp [starting.status]
      have token : start.media.processingLeaseToken = none := by
        simpa using mt starting.leased.token.mp unleased
      have expiry : start.media.processingLeaseExpiresAt = none := by
        simpa using mt starting.leased.expiry.mp unleased
      have job : start.media.activeJobId = none := by
        simpa using mt starting.leased.job.mp unleased
      exact ⟨⟨starting.current, token, expiry, job, rfl⟩, rfl, starting.status, [],
        (List.append_nil _).symm, rfl, nofun, nofun⟩
  | succ count ih =>
      have before : Retrying workers payload runs start count
          (after workers payload runs start count) :=
        ih (Nat.lt_of_succ_lt left) fun earlier inside => fails earlier (Nat.lt_succ_of_lt inside)
      exact before.next starting distinct (fails count (Nat.lt_add_one count)) left

/-- The queue does not run a finished job again. -/
theorem after_finished {first : Nat}
    (finished : (after workers payload runs start first).job = .completed ∨
      (after workers payload runs start first).job = .failed) {later : Nat}
    (order : first ≤ later) :
    after workers payload runs start later = after workers payload runs start first := by
  induction order with
  | refl => rfl
  | step _ ih =>
      rw [after, ih]
      unfold deliver
      rcases finished with completed | failed
      · rw [completed]
      · rw [failed]

end Runs

/-- The count of the queue and the bound of the workers agree on the last attempt. -/
theorem after_automaticRetries (workers : QueueWorkers) (payload : MediaJobPayloadV1)
    (runs : Nat → JobRun) (start : Rows) (positive : 1 ≤ workers.mediaJobAttempts)
    (starting : Starting start payload.generation)
    (distinct : Function.Injective fun count => (runs count).token) :
    AutomaticRetries workers payload runs start where
  between count left fails := (retrying_after starting distinct left fails).between starting
  succeeds count left fails succeeds later order := by
    have retrying := retrying_after starting distinct left fails
    have here : Succeeded start payload count (after workers payload runs start (count + 1)) :=
      retrying.succeeded starting distinct succeeds
    rw [after_finished (.inl here.ended) order]
    exact here
  exhausts fails later order := by
    obtain ⟨count, last⟩ := Nat.exists_eq_add_of_le' positive
    have left : count < workers.mediaJobAttempts := by omega
    have retrying := retrying_after starting distinct left fun earlier inside =>
      fails earlier (Nat.lt_trans inside left)
    have here : Exhausted start payload (count + 1)
        (after workers payload runs start (count + 1)) :=
      retrying.exhausted starting distinct (fails count left) last.symm
    rw [last] at order ⊢
    rw [after_finished (.inr here.ended) order]
    exact here

section Refinement

variable {deployment : Deployment} {payload : MediaJobPayloadV1} {attemptsMade : Nat}
variable {run : JobRun} {s t : RowState} {rows : Rows}

/-- The statements lead to these rows under the same clock. -/
def LeadsTo (s : RowState) (rows : Rows) : Prop :=
  ∃ t, rowMachine.Path Machine.anything s t ∧ t.rows = rows ∧ t.now = s.now

theorem LeadsTo.trans {next : Rows} (first : LeadsTo s rows)
    (second : ∀ t : RowState, t.rows = rows → t.now = s.now → LeadsTo t next) :
    LeadsTo s next := by
  obtain ⟨t, path, reached, now⟩ := first
  obtain ⟨u, path', reached', now'⟩ := second t reached now
  exact ⟨u, path.trans path', reached', now'.trans now⟩

theorem leadsTo_of_reaches {x : ExecutionId} (reached : ∃ t, Reaches s x rows t) :
    LeadsTo s rows := by
  obtain ⟨t, reaches⟩ := reached
  exact ⟨t, reaches.path, reaches.rows, reaches.now⟩

/-- An operation is one statement. -/
theorem leadsTo_operation (operation : Operation) (generation : Nat) (token : LeaseToken)
    {asOf : Time} (past : asOf ≤ s.now) :
    LeadsTo s (operation.run s.rows generation token asOf).1 :=
  leadsTo_of_reaches (reaches_run operation generation past)

theorem leadsTo_renewAll (renewed : ∀ asOf ∈ run.renewals, asOf ≤ s.now) :
    LeadsTo s (renewAll deployment payload run s.rows) := by
  unfold renewAll
  revert renewed
  generalize run.renewals = renewals
  intro renewed
  induction renewals generalizing s with
  | nil => exact ⟨s, .refl s, rfl, rfl⟩
  | cons asOf rest ih =>
      rw [List.foldl_cons]
      refine (leadsTo_operation (.renew deployment.processingLeaseSeconds) payload.generation
        run.token (renewed asOf List.mem_cons_self)).trans fun t reached now => ?_
      rw [← reached]
      apply ih
      intro other member
      rw [now]
      exact renewed other (List.mem_cons_of_mem _ member)

theorem leadsTo_handle (attemptId : String) (finished : run.finishedAt ≤ s.now) :
    LeadsTo s (handle payload run attemptId s.rows).1 := by
  unfold handle
  split
  · exact ⟨s, .refl s, rfl, rfl⟩
  · exact ⟨s, .refl s, rfl, rfl⟩
  · exact leadsTo_operation (.publish attemptId _ _) payload.generation run.token finished

/-- A run of a job is a path of database statements. -/
theorem leadsTo_execute (fresh : s.terms run.token = none) (claimed : run.claimedAt ≤ s.now)
    (renewed : ∀ asOf ∈ run.renewals, asOf ≤ s.now) (finished : run.finishedAt ≤ s.now) :
    LeadsTo s (execute deployment payload attemptsMade run s.rows).1 := by
  have started : LeadsTo s (claim s.rows payload.generation
      (mediaJobId payload.mediaId payload.generation) deployment.processingLeaseSeconds run.token
      run.claimedAt).1 :=
    leadsTo_of_reaches (reaches_claim _ _ _ claimed fresh)
  unfold execute
  revert started
  cases claim s.rows payload.generation (mediaJobId payload.mediaId payload.generation)
    deployment.processingLeaseSeconds run.token run.claimedAt with
  | mk taken granted =>
      intro started
      cases granted with
      | false => exact started
      | true =>
          refine started.trans fun t reached now => ?_
          subst reached
          have inserted : LeadsTo t (createAttempt t.rows
              (newAttempt deployment run.token payload attemptsMade)).1 :=
            leadsTo_of_reaches (x := run.token) (reaches_createAttempt _)
          refine inserted.trans fun u attempted now' => ?_
          dsimp only
          rw [← attempted]
          have past (asOf : Time) (before : asOf ≤ s.now) : asOf ≤ u.now := by
            rw [now', now]
            exact before
          have renewals : LeadsTo u (renewAll deployment payload run u.rows) :=
            leadsTo_renewAll fun asOf member => past asOf (renewed asOf member)
          refine renewals.trans fun v kept same => ?_
          rw [← kept]
          have ended : run.finishedAt ≤ v.now := by
            rw [same]
            exact past _ finished
          have works : LeadsTo v (handle payload run (createAttempt t.rows
              (newAttempt deployment run.token payload attemptsMade)).2.id v.rows).1 :=
            leadsTo_handle _ ended
          refine works.trans fun w handled same' => ?_
          rw [← same'] at ended
          revert handled
          cases handle payload run (createAttempt t.rows (newAttempt deployment run.token payload
            attemptsMade)).2.id v.rows with
          | mk rows result =>
              intro handled
              subst handled
              cases result with
              | ok => exact leadsTo_operation _ payload.generation run.token ended
              | error message => exact leadsTo_operation _ payload.generation run.token ended

end Refinement

/-- Workers whose queue tries each job three times. -/
def sampleWorkers : QueueWorkers where
  toDeployment := sampleDeployment
  configuration := ⟨"localhost", 6379, 3, 1000⟩
  sameAttempts := rfl

/-- Two runs whose handler throws and then runs whose handler publishes nothing and returns. -/
def thirdTime (count : Nat) : JobRun where
  token := count
  claimedAt := 100000 * count
  renewals := [100000 * count + 30000]
  finishedAt := 100000 * count + 40000
  handler := if count < 2 then .error "FFMPEG_FAILED: exit code 1" else .ok none

theorem recording_starting : Starting recording recordingPayload.generation :=
  ⟨rfl, rfl, (createWithDispatch_fresh _).leased, nofun⟩

theorem thirdTime_fails {count : Nat} (early : count < 2) : (thirdTime count).Fails :=
  ⟨_, if_pos early⟩

/-- The recording is completed by the third run. -/
theorem recording_retries :
    Between recording recordingPayload 2
        (after sampleWorkers recordingPayload thirdTime recording 2) ∧
      Succeeded recording recordingPayload 2
        (after sampleWorkers recordingPayload thirdTime recording 3) := by
  have retries : AutomaticRetries sampleWorkers recordingPayload thirdTime recording :=
    after_automaticRetries sampleWorkers recordingPayload thirdTime recording (by decide)
      recording_starting fun _ _ same => same
  have succeeds : (thirdTime 2).Succeeds := ⟨none, rfl⟩
  exact ⟨retries.between 2 (by decide) fun _ early => thirdTime_fails early,
    retries.succeeds 2 (by decide) (fun _ early => thirdTime_fails early) succeeds 3 (by decide)⟩

end PostsMedia.Processing
