import PostsMedia.Media.Row

namespace PostsMedia

def queueNameFor : MediaType → String
  | .image => "image-processing"
  | .audio => "audio-processing"
  | .video => "video-processing"

def jobNameFor : MediaType → String
  | .image => "process-image"
  | .audio => "process-audio"
  | .video => "process-video"

/-- Automatic retries keep the generation and therefore the job id. -/
def mediaJobId (mediaId : String) (generation : Nat) : String :=
  "media-" ++ mediaId ++ "-generation-" ++ toString generation

inductive DispatchReason
  | initialUpload
  | manualRetry
  deriving DecidableEq, Repr

def DispatchReason.text : DispatchReason → String
  | .initialUpload => "INITIAL_UPLOAD"
  | .manualRetry => "MANUAL_RETRY"

inductive DispatchStatus
  | pending
  | publishing
  | retryWait
  | published
  | dead
  deriving DecidableEq, Repr

structure MediaJobPayloadV1 where
  payloadVersion : Nat := 1
  dispatchId : String
  mediaId : String
  postId : String
  mediaType : MediaType
  generation : Nat
  processingProfile : String
  reason : DispatchReason
  deriving DecidableEq, Repr

/-- The document that the outbox stores for a payload. -/
def MediaJobPayloadV1.toJson (payload : MediaJobPayloadV1) : Json :=
  .obj [("payloadVersion", .num payload.payloadVersion), ("dispatchId", .str payload.dispatchId),
    ("mediaId", .str payload.mediaId), ("postId", .str payload.postId),
    ("mediaType", .str payload.mediaType.text), ("generation", .num payload.generation),
    ("processingProfile", .str payload.processingProfile), ("reason", .str payload.reason.text)]

/-- One row of the outbox table with the defaults of the schema. -/
structure ProcessingDispatch where
  id : String
  mediaId : String
  generation : Nat
  reason : DispatchReason
  queueName : String
  jobName : String
  jobId : String
  payloadVersion : Nat := 1
  payload : Json
  status : DispatchStatus := .pending
  publishAttempts : Nat := 0
  nextAttemptAt : Option Time := none
  leaseToken : Option LeaseToken := none
  leaseExpiresAt : Option Time := none
  lastErrorCode : Option String := none
  lastErrorMessage : Option String := none
  publishedAt : Option Time := none

/-- Both producers build a dispatch row from its payload. -/
def ProcessingDispatch.ofPayload (payload : MediaJobPayloadV1) : ProcessingDispatch where
  id := payload.dispatchId
  mediaId := payload.mediaId
  generation := payload.generation
  reason := payload.reason
  queueName := queueNameFor payload.mediaType
  jobName := jobNameFor payload.mediaType
  jobId := mediaJobId payload.mediaId payload.generation
  payloadVersion := 1
  payload := payload.toJson

end PostsMedia
