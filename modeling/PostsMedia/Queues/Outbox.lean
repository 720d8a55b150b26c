import PostsMedia.Queues.Jobs

namespace PostsMedia

def MediaType.ofText : String → Option MediaType
  | "IMAGE" => some .image
  | "AUDIO" => some .audio
  | "VIDEO" => some .video
  | _ => none

namespace ProcessingDispatch

/-- The stored document of a dispatch as a payload. Every field that the row repeats must agree. -/
def payloadFor (dispatch : ProcessingDispatch) : Except String MediaJobPayloadV1 :=
  let field name := dispatch.payload.field name
  match field "payloadVersion", field "dispatchId", field "mediaId", field "postId",
      field "mediaType", field "generation", field "processingProfile", field "reason" with
  | some (.num 1), some (.str dispatchId), some (.str mediaId), some (.str postId),
      some (.str mediaType), some (.num generation), some (.str processingProfile),
      some (.str reason) =>
    match MediaType.ofText mediaType with
    | some known =>
        if dispatchId = dispatch.id ∧ mediaId = dispatch.mediaId ∧
            generation = dispatch.generation ∧ processingProfile = "balanced-v1" ∧
            reason = dispatch.reason.text then
          .ok
            { dispatchId := dispatchId
              mediaId := mediaId
              postId := postId
              mediaType := known
              generation := dispatch.generation
              processingProfile := processingProfile
              reason := dispatch.reason }
        else .error "OUTBOX_PAYLOAD_INVALID"
    | none => .error "OUTBOX_PAYLOAD_INVALID"
  | _, _, _, _, _, _, _, _ => .error "OUTBOX_PAYLOAD_INVALID"

/-- The checks before the publication. The queue, the job name and the job id must agree too. -/
def checked (dispatch : ProcessingDispatch) : Except String MediaJobPayloadV1 :=
  match dispatch.payloadFor with
  | .error message => .error message
  | .ok payload =>
      if dispatch.queueName = queueNameFor payload.mediaType ∧
          dispatch.jobName = jobNameFor payload.mediaType ∧
          dispatch.jobId = mediaJobId payload.mediaId payload.generation then .ok payload
      else .error "OUTBOX_MAPPING_INVALID"

/-- The `where` clause of `claimBatch`. -/
def claimable (dispatch : ProcessingDispatch) (now : Time) : Bool :=
  match dispatch.status with
  | .pending => true
  | .retryWait => dispatch.nextAttemptAt.all fun due => due ≤ now
  | .publishing => dispatch.leaseExpiresAt.any fun expiry => expiry ≤ now
  | .published | .dead => false

/-- The data of `claimBatch`. -/
def claimed (dispatch : ProcessingDispatch) (leaseSeconds : Nat) (token : LeaseToken)
    (now : Time) : ProcessingDispatch :=
  { dispatch with
    status := .publishing
    leaseToken := some token
    leaseExpiresAt := some (now + leaseSeconds * 1000) }

/-- The `where` clause that the three marks share. -/
def owned (dispatch : ProcessingDispatch) (id : String) (token : LeaseToken) : Bool :=
  dispatch.id = id && dispatch.status = .publishing && dispatch.leaseToken = some token

def markPublished (now : Time) (dispatch : ProcessingDispatch) : ProcessingDispatch :=
  { dispatch with
    status := .published
    publishedAt := some now
    leaseToken := none
    leaseExpiresAt := none
    nextAttemptAt := none
    lastErrorCode := none
    lastErrorMessage := none }

def markRetryWait (nextAttemptAt : Time) (errorCode errorMessage : String)
    (dispatch : ProcessingDispatch) : ProcessingDispatch :=
  { dispatch with
    status := .retryWait
    publishAttempts := dispatch.publishAttempts + 1
    nextAttemptAt := some nextAttemptAt
    leaseToken := none
    leaseExpiresAt := none
    lastErrorCode := some (String.ofList (errorCode.toList.take 64))
    lastErrorMessage := some (String.ofList (errorMessage.toList.take 1000)) }

def markDead (errorCode errorMessage : String) (dispatch : ProcessingDispatch) :
    ProcessingDispatch :=
  { dispatch with
    status := .dead
    publishAttempts := dispatch.publishAttempts + 1
    leaseToken := none
    leaseExpiresAt := none
    lastErrorCode := some (String.ofList (errorCode.toList.take 64))
    lastErrorMessage := some (String.ofList (errorMessage.toList.take 1000)) }

/-- The dispatch is still going to be published. -/
def isOpen (dispatch : ProcessingDispatch) : Bool :=
  match dispatch.status with
  | .pending | .retryWait | .publishing => true
  | .published | .dead => false

/-- A mark finds its row published by the call that marks it. -/
theorem of_owned {dispatch : ProcessingDispatch} {id : String} {token : LeaseToken}
    (owned : dispatch.owned id token = true) :
    dispatch.id = id ∧ dispatch.status = .publishing ∧ dispatch.leaseToken = some token := by
  simp only [ProcessingDispatch.owned, Bool.and_eq_true, decide_eq_true_eq] at owned
  exact ⟨owned.1.1, owned.1.2, owned.2⟩

/-- A row that is being published is not closed. -/
theorem isOpen_of_owned {dispatch : ProcessingDispatch} {id : String} {token : LeaseToken}
    (owned : dispatch.owned id token = true) : dispatch.isOpen = true := by
  rw [isOpen, (of_owned owned).2.1]

/-- The columns of a dispatch that no statement changes. -/
structure Same (first second : ProcessingDispatch) : Prop where
  id : first.id = second.id
  mediaId : first.mediaId = second.mediaId
  generation : first.generation = second.generation
  reason : first.reason = second.reason
  queueName : first.queueName = second.queueName
  jobName : first.jobName = second.jobName
  jobId : first.jobId = second.jobId
  payload : first.payload = second.payload

theorem Same.refl (dispatch : ProcessingDispatch) : Same dispatch dispatch :=
  ⟨rfl, rfl, rfl, rfl, rfl, rfl, rfl, rfl⟩

theorem Same.trans {first second third : ProcessingDispatch} (left : Same first second)
    (right : Same second third) : Same first third :=
  ⟨left.id.trans right.id, left.mediaId.trans right.mediaId,
    left.generation.trans right.generation, left.reason.trans right.reason,
    left.queueName.trans right.queueName, left.jobName.trans right.jobName,
    left.jobId.trans right.jobId, left.payload.trans right.payload⟩

section Statements

variable (dispatch : ProcessingDispatch) (token : LeaseToken) (now : Time)
variable (errorCode errorMessage : String)

theorem same_claimed (leaseSeconds : Nat) :
    dispatch.Same (dispatch.claimed leaseSeconds token now) :=
  ⟨rfl, rfl, rfl, rfl, rfl, rfl, rfl, rfl⟩

theorem same_markPublished : dispatch.Same (dispatch.markPublished now) :=
  ⟨rfl, rfl, rfl, rfl, rfl, rfl, rfl, rfl⟩

theorem same_markRetryWait :
    dispatch.Same (dispatch.markRetryWait now errorCode errorMessage) :=
  ⟨rfl, rfl, rfl, rfl, rfl, rfl, rfl, rfl⟩

theorem same_markDead : dispatch.Same (dispatch.markDead errorCode errorMessage) :=
  ⟨rfl, rfl, rfl, rfl, rfl, rfl, rfl, rfl⟩

end Statements

/-- The checks read only columns that no statement changes. -/
theorem Same.checked {first second : ProcessingDispatch} (same : Same first second) :
    first.checked = second.checked := by
  simp only [ProcessingDispatch.checked, payloadFor, same.id, same.mediaId, same.generation,
    same.reason, same.queueName, same.jobName, same.jobId, same.payload]

/-- Every dispatch that a producer builds passes the checks with its own payload. -/
theorem checked_ofPayload (payload : MediaJobPayloadV1) (version : payload.payloadVersion = 1)
    (profile : payload.processingProfile = "balanced-v1") :
    (ofPayload payload).checked = .ok payload := by
  have types : MediaType.ofText payload.mediaType.text = some payload.mediaType := by
    cases payload.mediaType <;> rfl
  obtain ⟨_, dispatchId, mediaId, postId, mediaType, generation, processingProfile, reason⟩ :=
    payload
  simp only at version profile types
  subst version profile
  simp [ProcessingDispatch.checked, payloadFor, ofPayload, MediaJobPayloadV1.toJson, Json.field,
    List.lookup_cons, types]

end ProcessingDispatch

/-- The dispatches after an update that only the owner of a dispatch may make. -/
def updateOwned (dispatches : List ProcessingDispatch) (id : String) (token : LeaseToken)
    (change : ProcessingDispatch → ProcessingDispatch) : List ProcessingDispatch :=
  dispatches.map fun dispatch => if dispatch.owned id token then change dispatch else dispatch

/-- The statement of `claimBatch` for one row of the batch. It returns the claimed row. -/
def claimDispatch (dispatches : List ProcessingDispatch) (id : String) (leaseSeconds : Nat)
    (token : LeaseToken) (now : Time) : Option (List ProcessingDispatch × ProcessingDispatch) :=
  (dispatches.find? fun dispatch => dispatch.id = id && dispatch.claimable now).map fun found =>
    (dispatches.map fun dispatch =>
        if dispatch.id = id && dispatch.claimable now then dispatch.claimed leaseSeconds token now
        else dispatch,
      found.claimed leaseSeconds token now)

/-- The published dispatches older than a time are deleted. -/
def deletePublishedBefore (dispatches : List ProcessingDispatch) (before : Time) :
    List ProcessingDispatch :=
  dispatches.filter fun dispatch =>
    !(dispatch.status = .published && dispatch.publishedAt.any fun published => published < before)

end PostsMedia
