import PostsMedia.Domain.Basic

namespace PostsMedia.Idempotency

inductive IdempotencyOperation
  | createPost
  | addPostMedia
  | retryMedia
  deriving DecidableEq, Repr

inductive IdempotencyState
  | inProgress
  | finalized
  | retryableFailure
  | expired
  deriving DecidableEq, Repr

/-- The response that a protected mutation replays. -/
structure IdempotentOutcome where
  responseStatus : Nat
  responseBody : Json
  targetResourceId : Option String := none
  resourceIds : Option Json := none

/-- The replayable form of a rejection. It omits the request id. -/
def domainErrorToOutcome (error : DomainError) : IdempotentOutcome where
  responseStatus := error.httpStatus
  responseBody := .obj ([("code", .str error.code), ("message", .str error.message)] ++
    match error.details with
    | some details => [("details", details)]
    | none => [])

/-- The error code of a stored body, when it is a known one. -/
def replayedCode (body : Json) : String :=
  match body.field "code" with
  | some (.str code) => if code ∈ errorCodes then code else "INTERNAL_ERROR"
  | _ => "INTERNAL_ERROR"

/-- The message of a stored body, when it is a text. -/
def replayedMessage (body : Json) : String :=
  match body.field "message" with
  | some (.str message) => message
  | _ => "The original request failed."

/-- The rejection that a stored outcome stands for. -/
def outcomeToDomainError (outcome : IdempotentOutcome) : DomainError where
  code := replayedCode outcome.responseBody
  message := replayedMessage outcome.responseBody
  httpStatus := outcome.responseStatus
  details := outcome.responseBody.field "details"

/-- A stored rejection with a known code replays as the same error. -/
theorem outcomeToDomainError_domainErrorToOutcome (error : DomainError)
    (known : error.code ∈ errorCodes) :
    outcomeToDomainError (domainErrorToOutcome error) = error := by
  obtain ⟨code, message, httpStatus, details⟩ := error
  have known' : code ∈ errorCodes := known
  cases details <;>
    simp [outcomeToDomainError, domainErrorToOutcome, replayedCode, replayedMessage, Json.field,
      List.lookup_cons, known']

/-- One row of the idempotency table. The type `τ` holds the random lease tokens. -/
structure IdempotencyRequest (τ : Type) where
  operation : IdempotencyOperation
  requestFingerprint : Option String
  state : IdempotencyState
  responseStatus : Option Nat := none
  responseBody : Option Json := none
  targetResourceId : Option String := none
  resourceIds : Option Json := none
  leaseToken : Option τ
  leaseExpiresAt : Option Time
  finalizedAt : Option Time := none
  expiresAt : Time

namespace IdempotencyRequest

variable {τ : Type}

/-- The insert of `acquire` opens a fresh key under a new lease. -/
def create (operation : IdempotencyOperation) (fingerprint : String) (token : τ)
    (leaseExpiresAt expiresAt : Time) : IdempotencyRequest τ where
  operation := operation
  requestFingerprint := some fingerprint
  state := .inProgress
  leaseToken := some token
  leaseExpiresAt := some leaseExpiresAt
  expiresAt := expiresAt

/-- The update of `finalize` selects its row by the key alone. -/
def finalize (row : IdempotencyRequest τ) (outcome : IdempotentOutcome) (now : Time) :
    IdempotencyRequest τ :=
  { row with
    state := .finalized
    responseStatus := some outcome.responseStatus
    responseBody := some outcome.responseBody
    targetResourceId := outcome.targetResourceId
    resourceIds := Json.nullish outcome.resourceIds
    finalizedAt := some now
    leaseToken := none
    leaseExpiresAt := none }

/-- The update of `markRetryableFailure` selects its row by the key alone. -/
def markRetryableFailure (row : IdempotencyRequest τ) : IdempotencyRequest τ :=
  { row with state := .retryableFailure, leaseToken := none, leaseExpiresAt := none }

/-- The test that `reconcileExisting` makes on the row that it read. -/
def reclaimable (row : IdempotencyRequest τ) (now : Time) : Bool :=
  row.state = .retryableFailure ||
    (row.state = .inProgress && row.leaseExpiresAt.any fun expiry => expiry ≤ now)

/-- The `where` clause of the conditional update that reclaims a row. -/
def reclaims (row : IdempotencyRequest τ) (fingerprint : String) (asOf : Time) : Bool :=
  row.requestFingerprint = some fingerprint && row.reclaimable asOf

/-- The data of the conditional update that reclaims a row. The row's `expiresAt` stays. -/
def reclaim (row : IdempotencyRequest τ) (token : τ) (leaseExpiresAt : Time) :
    IdempotencyRequest τ :=
  { row with
    state := .inProgress
    leaseToken := some token
    leaseExpiresAt := some leaseExpiresAt }

/-- The outcome that a finalized row replays. -/
def replayed (row : IdempotencyRequest τ) : IdempotentOutcome where
  responseStatus := row.responseStatus.getD 200
  responseBody := row.responseBody.getD .null
  targetResourceId := row.targetResourceId
  resourceIds := row.resourceIds

/-- A lease is stored exactly in an in-progress row, and always with an expiry. -/
structure WellFormed (row : IdempotencyRequest τ) : Prop where
  token : row.leaseToken.isSome = true ↔ row.state = .inProgress
  expiry : row.leaseExpiresAt.isSome = true ↔ row.state = .inProgress

theorem create_wellFormed (operation : IdempotencyOperation) (fingerprint : String) (token : τ)
    (leaseExpiresAt expiresAt : Time) :
    (create operation fingerprint token leaseExpiresAt expiresAt).WellFormed :=
  ⟨by simp [create], by simp [create]⟩

theorem finalize_wellFormed (row : IdempotencyRequest τ) (outcome : IdempotentOutcome)
    (now : Time) : (row.finalize outcome now).WellFormed :=
  ⟨by simp [finalize], by simp [finalize]⟩

theorem markRetryableFailure_wellFormed (row : IdempotencyRequest τ) :
    row.markRetryableFailure.WellFormed :=
  ⟨by simp [markRetryableFailure], by simp [markRetryableFailure]⟩

theorem reclaim_wellFormed (row : IdempotencyRequest τ) (token : τ) (leaseExpiresAt : Time) :
    (row.reclaim token leaseExpiresAt).WellFormed :=
  ⟨by simp [reclaim], by simp [reclaim]⟩

/-- A finalized row is never reclaimed. -/
theorem not_reclaims_of_finalized (row : IdempotencyRequest τ) (fingerprint : String) (asOf : Time)
    (finalized : row.state = .finalized) : row.reclaims fingerprint asOf = false := by
  simp [reclaims, reclaimable, finalized]

/-- A finalized row replays the outcome that finalized it. -/
theorem replayed_finalize (row : IdempotencyRequest τ) (outcome : IdempotentOutcome) (now : Time) :
    (row.finalize outcome now).replayed =
      { outcome with resourceIds := Json.nullish outcome.resourceIds } := rfl

end IdempotencyRequest

/-- The claim that `acquire` hands to `acquireOrReplay`. -/
inductive Claim
  | acquired
  | replay (outcome : IdempotentOutcome)
  | conflict
  | inProgress

/-- `reconcileExisting` either settles on what it read or goes on to the conditional update. -/
inductive Verdict
  | settled (claim : Claim)
  | reclaim

/-- The decision of `reconcileExisting` on the row that it read. -/
def reconcileExisting {τ : Type} (existing : IdempotencyRequest τ) (fingerprint : String)
    (now : Time) : Verdict :=
  if existing.state = .finalized then
    if existing.requestFingerprint ≠ some fingerprint then .settled .conflict
    else .settled (.replay existing.replayed)
  else if existing.reclaimable now = false then
    if existing.requestFingerprint = some fingerprint then .settled .inProgress
    else .settled .conflict
  else if existing.requestFingerprint ≠ some fingerprint then .settled .conflict
  else .reclaim

/-- A finalized row replays to its own fingerprint. -/
theorem reconcileExisting_finalized {τ : Type} (existing : IdempotencyRequest τ)
    (fingerprint : String) (now : Time) (finalized : existing.state = .finalized)
    (same : existing.requestFingerprint = some fingerprint) :
    reconcileExisting existing fingerprint now = .settled (.replay existing.replayed) := by
  simp [reconcileExisting, finalized, same]

def keyReusedError : DomainError where
  code := "IDEMPOTENCY_KEY_REUSED"
  message := "This Idempotency-Key was already used for a different request."
  httpStatus := 409

/-- The hint in seconds that accompanies an in-progress rejection. -/
def idempotencyInProgressRetryAfterSeconds : Int := 2

def requestInProgressError : DomainError where
  code := "IDEMPOTENCY_REQUEST_IN_PROGRESS"
  message := "A request with this Idempotency-Key is already being processed."
  httpStatus := 409
  details := some (.obj [("retryAfterSeconds", .num idempotencyInProgressRetryAfterSeconds)])

end PostsMedia.Idempotency
