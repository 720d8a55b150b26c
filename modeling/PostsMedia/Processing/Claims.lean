import PostsMedia.Media.Variant
import PostsMedia.Queues.Dispatch

namespace PostsMedia.Processing

/-- The rows of one media that the workers and the retry write. -/
structure Rows where
  media : Media
  variants : List MediaVariant
  attempts : List ProcessingAttempt
  dispatches : List ProcessingDispatch

/-- The characters that the JavaScript `trim` removes. -/
def trimmed (c : Char) : Bool :=
  c.toNat ∈ [9, 10, 11, 12, 13, 32, 160, 5760, 8192, 8193, 8194, 8195, 8196, 8197, 8198, 8199, 8200,
    8201, 8202, 8232, 8233, 8239, 8287, 12288, 65279]

def trim (text : List Char) : List Char :=
  ((text.dropWhile trimmed).reverse.dropWhile trimmed).reverse

/-- The prefixes of the error identifiers that a client may see. -/
def safePrefixes : List String := ["PROCESSING_", "MEDIA_", "FFMPEG_", "FFPROBE_"]

/-- An identifier has a safe prefix, and the rest is capitals, digits and underscores. -/
def safeIdentifier (identifier : List Char) : Bool :=
  safePrefixes.any fun start => start.toList.isPrefixOf identifier &&
    start.length < identifier.length &&
    (identifier.drop start.length).all fun c => c.isUpper || c.isDigit || c = '_'

/-- Only a known identifier at the start of a message is stored. -/
def safeProcessingErrorMessage (message : String) : String :=
  let identifier := trim (message.toList.takeWhile (· ≠ ':'))
  if safeIdentifier identifier then String.ofList (identifier.take 1000)
  else "Media processing failed."

end PostsMedia.Processing

namespace PostsMedia.Media

open Processing

/-- The `where` clause of `claim`. -/
def claimable (media : Media) (generation : Nat) (now : Time) : Bool :=
  media.processingGeneration = generation && media.processingStatus ≠ .completed &&
    media.processingLeaseExpiresAt.all fun expiry => expiry ≤ now

/-- The data of `claim`. -/
def claimed (media : Media) (jobId : String) (leaseSeconds : Nat) (token : LeaseToken)
    (now : Time) : Media :=
  { media with
    processingStatus := .processing
    currentStep := .claiming
    processingLeaseToken := some token
    processingLeaseExpiresAt := some (now + leaseSeconds * 1000)
    activeJobId := some jobId
    processingStartedAt := some now }

/-- The `where` clause that `complete`, `fail` and the publication share. -/
def guarded (media : Media) (generation : Nat) (token : LeaseToken) : Bool :=
  media.processingGeneration = generation && media.processingLeaseToken = some token

/-- The `where` clause of `renew` also asks for the status. -/
def renewable (media : Media) (generation : Nat) (token : LeaseToken) : Bool :=
  media.guarded generation token && media.processingStatus = .processing

def renewed (media : Media) (leaseSeconds : Nat) (now : Time) : Media :=
  { media with processingLeaseExpiresAt := some (now + leaseSeconds * 1000) }

/-- The data of `complete`. The publication also stores its metadata, if it has any. -/
def completed (media : Media) (metadata : Option Json) (now : Time) : Media :=
  { media with
    processingStatus := .completed
    progress := 100
    currentStep := .completed
    processingCompletedAt := some now
    processingLeaseToken := none
    processingLeaseExpiresAt := none
    activeJobId := none
    lastErrorCode := none
    lastErrorMessage := none
    metadata := metadata.or media.metadata }

/-- The data of `fail`. -/
def failed (media : Media) (final : Bool) (errorCode errorMessage : String) : Media :=
  { media with
    processingStatus := if final then .failed else .pending
    progress := if final then 100 else 0
    currentStep := if final then .failed else .pending
    processingLeaseToken := none
    processingLeaseExpiresAt := none
    activeJobId := none
    lastErrorCode := some (String.ofList (errorCode.toList.take 64))
    lastErrorMessage := some (safeProcessingErrorMessage errorMessage) }

/-- The data of `retry`. -/
def retried (media : Media) : Media :=
  { media with
    processingGeneration := media.processingGeneration + 1
    processingStatus := .pending
    progress := 0
    currentStep := .pending
    processingStartedAt := none
    processingCompletedAt := none
    processingLeaseToken := none
    processingLeaseExpiresAt := none
    activeJobId := none
    lastErrorCode := none
    lastErrorMessage := none }

section Leased

variable (media : Media)

theorem claimed_leased (jobId : String) (leaseSeconds : Nat) (token : LeaseToken) (now : Time) :
    (media.claimed jobId leaseSeconds token now).Leased :=
  ⟨by simp [claimed], by simp [claimed], by simp [claimed]⟩

theorem completed_leased (metadata : Option Json) (now : Time) :
    (media.completed metadata now).Leased :=
  ⟨by simp [completed], by simp [completed], by simp [completed]⟩

theorem failed_leased (final : Bool) (errorCode errorMessage : String) :
    (media.failed final errorCode errorMessage).Leased := by
  cases final <;> exact ⟨by simp [failed], by simp [failed], by simp [failed]⟩

theorem retried_leased : media.retried.Leased :=
  ⟨by simp [retried], by simp [retried], by simp [retried]⟩

theorem renewed_leased {generation : Nat} {token : LeaseToken} (leased : media.Leased)
    (matched : media.renewable generation token = true) (leaseSeconds : Nat) (now : Time) :
    (media.renewed leaseSeconds now).Leased := by
  simp only [renewable, Bool.and_eq_true, decide_eq_true_eq] at matched
  exact ⟨leased.token, by simp [renewed, matched.2], leased.job⟩

end Leased

end PostsMedia.Media

namespace PostsMedia.Processing

/-- The statement of `claim`. It reports whether it changed the row. -/
def claim (rows : Rows) (generation : Nat) (jobId : String) (leaseSeconds : Nat)
    (token : LeaseToken) (now : Time) : Rows × Bool :=
  if rows.media.claimable generation now then
    ({ rows with media := rows.media.claimed jobId leaseSeconds token now }, true)
  else (rows, false)

/-- The upsert of `createAttempt` returns the row that is already there. -/
def createAttempt (rows : Rows) (created : ProcessingAttempt) : Rows × ProcessingAttempt :=
  match rows.attempts.find? fun attempt => attempt.generation = created.generation &&
      attempt.bullAttemptNumber = created.bullAttemptNumber with
  | some present => (rows, present)
  | none => ({ rows with attempts := rows.attempts ++ [created] }, created)

/-- The attempt rows after an update by id and generation. -/
def updateAttempt (attempts : List ProcessingAttempt) (attemptId : String) (generation : Nat)
    (change : ProcessingAttempt → ProcessingAttempt) : List ProcessingAttempt :=
  attempts.map fun attempt =>
    if attempt.id = attemptId ∧ attempt.generation = generation then change attempt else attempt

def completeAttempt (now : Time) (attempt : ProcessingAttempt) : ProcessingAttempt :=
  { attempt with status := .completed, completedAt := some now }

def failAttempt (errorCode errorMessage : String) (now : Time)
    (attempt : ProcessingAttempt) : ProcessingAttempt :=
  { attempt with
    status := .failed
    errorCode := some (String.ofList (errorCode.toList.take 64))
    errorMessage := some (safeProcessingErrorMessage errorMessage)
    completedAt := some now }

/-- What the holder of a lease token may ask the database for. -/
inductive Operation
  | renew (leaseSeconds : Nat)
  | complete (attemptId : String)
  | fail (attemptId : String) (final : Bool) (errorCode errorMessage : String)
  | publish (attemptId : String) (variants : List MediaVariant) (metadata : Option Json)

/-- The operation gives the lease up when it takes effect. -/
def Operation.finishes : Operation → Bool
  | .renew _ => false
  | _ => true

/-- The operation on the rows under one token. It reports whether the token still held the lease. -/
def Operation.run (operation : Operation) (rows : Rows) (generation : Nat) (token : LeaseToken)
    (now : Time) : Rows × Bool :=
  match operation with
  | .renew leaseSeconds =>
      if rows.media.renewable generation token then
        ({ rows with media := rows.media.renewed leaseSeconds now }, true)
      else (rows, false)
  | .complete attemptId =>
      if rows.media.guarded generation token then
        ({ rows with
          media := rows.media.completed none now
          attempts := updateAttempt rows.attempts attemptId generation
            (completeAttempt now) }, true)
      else (rows, false)
  | .fail attemptId final errorCode errorMessage =>
      if rows.media.guarded generation token then
        ({ rows with
          media := rows.media.failed final errorCode errorMessage
          attempts := updateAttempt rows.attempts attemptId generation
            (failAttempt errorCode errorMessage now) }, true)
      else (rows, false)
  | .publish attemptId variants metadata =>
      if rows.media.guarded generation token then
        ({ rows with
          media := rows.media.completed metadata now
          variants := upsertVariants rows.variants variants
          attempts := updateAttempt rows.attempts attemptId generation
            (completeAttempt now) }, true)
      else (rows, false)

/-- The publication throws when it lost the lease. The other operations return false. -/
def Operation.loss : Operation → Except String Bool
  | .publish .. => .error "PROCESSING_LEASE_LOST"
  | _ => .ok false

/-- The operation together with what its caller sees. -/
def Operation.call (operation : Operation) (rows : Rows) (generation : Nat) (token : LeaseToken)
    (now : Time) : Rows × Except String Bool :=
  let (after, held) := operation.run rows generation token now
  (after, if held then .ok true else operation.loss)

/-- The dispatch that a manual retry creates. The client spells the media id. The payload and the
job id keep its spelling, and the `uuid` column does not. -/
def retryDispatch (media : Media) (id dispatchId : String) : ProcessingDispatch :=
  { ProcessingDispatch.ofPayload
      { dispatchId := dispatchId
        mediaId := id
        postId := media.postId
        mediaType := media.mediaType
        generation := media.processingGeneration + 1
        processingProfile := media.processingProfile
        reason := .manualRetry } with
    mediaId := uuidColumn id }

/-- The transaction of `retry` for a media whose id the client spells in this way. Its conditional
update repeats the check of its read. -/
def retry (rows : Rows) (id dispatchId : String) : Option Rows :=
  if uuidColumn id = rows.media.id ∧ rows.media.processingStatus = .failed then
    some { rows with
      media := rows.media.retried
      dispatches := rows.dispatches ++ [retryDispatch rows.media id dispatchId] }
  else none

theorem retry_spec {rows after : Rows} {id dispatchId : String}
    (retried : retry rows id dispatchId = some after) :
    uuidColumn id = rows.media.id ∧ rows.media.processingStatus = .failed ∧
      after = { rows with
        media := rows.media.retried
        dispatches := rows.dispatches ++ [retryDispatch rows.media id dispatchId] } := by
  obtain ⟨⟨own, failed⟩, done⟩ := Option.ite_none_right_eq_some.mp retried
  exact ⟨own, failed, (Option.some.inj done).symm⟩

/-- An operation without the lease changes nothing and reports the loss. -/
theorem Operation.run_of_lost (operation : Operation) {rows : Rows} {generation : Nat}
    {token : LeaseToken} {now : Time} (lost : rows.media.processingLeaseToken ≠ some token) :
    operation.run rows generation token now = (rows, false) := by
  cases operation <;> simp [run, Media.renewable, Media.guarded, lost]

/-- The caller of an operation without the lease learns of the loss. -/
theorem Operation.call_of_lost (operation : Operation) {rows : Rows} {generation : Nat}
    {token : LeaseToken} {now : Time} (lost : rows.media.processingLeaseToken ≠ some token) :
    operation.call rows generation token now = (rows, operation.loss) := by
  rw [call, operation.run_of_lost lost]
  rfl

/-- No operation breaks the agreement of the status and the lease columns. -/
theorem Operation.run_leased (operation : Operation) {rows : Rows} (leased : rows.media.Leased)
    (generation : Nat) (token : LeaseToken) (now : Time) :
    (operation.run rows generation token now).1.media.Leased := by
  cases operation <;> simp only [run] <;> split
  · exact rows.media.renewed_leased leased ‹_› _ now
  · exact leased
  · exact Media.completed_leased ..
  · exact leased
  · exact Media.failed_leased ..
  · exact leased
  · exact Media.completed_leased ..
  · exact leased

section Frames

variable {rows : Rows} {generation : Nat} {token : LeaseToken} {now : Time}

/-- No operation changes the generation or the outbox. -/
theorem Operation.run_frame (operation : Operation) :
    (operation.run rows generation token now).1.media.processingGeneration =
        rows.media.processingGeneration ∧
      (operation.run rows generation token now).1.dispatches = rows.dispatches := by
  cases operation <;> simp only [run]
  all_goals split <;> exact ⟨rfl, rfl⟩

/-- An operation that its guard refuses changes nothing. -/
theorem Operation.run_refused (operation : Operation)
    (refused : (operation.run rows generation token now).2 = false) :
    (operation.run rows generation token now).1 = rows := by
  revert refused
  cases operation <;> simp only [run]
  all_goals
    split
    · intro refused
      cases refused
    · intro _
      rfl

theorem claim_frame (jobId : String) (leaseSeconds : Nat) :
    (claim rows generation jobId leaseSeconds token now).1.media.processingGeneration =
        rows.media.processingGeneration ∧
      (claim rows generation jobId leaseSeconds token now).1.dispatches = rows.dispatches := by
  simp only [claim]
  split <;> exact ⟨rfl, rfl⟩

theorem createAttempt_frame (rows : Rows) (created : ProcessingAttempt) :
    (createAttempt rows created).1.media = rows.media ∧
      (createAttempt rows created).1.dispatches = rows.dispatches := by
  unfold createAttempt
  split <;> exact ⟨rfl, rfl⟩

end Frames

end PostsMedia.Processing
