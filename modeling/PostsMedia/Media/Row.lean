import PostsMedia.Domain.Basic

namespace PostsMedia

/-- The text of a media type in payloads and responses. -/
def MediaType.text : MediaType → String
  | .image => "IMAGE"
  | .audio => "AUDIO"
  | .video => "VIDEO"

inductive ProcessingStatus
  | pending
  | processing
  | completed
  | failed
  deriving DecidableEq, Repr

/-- The generation of a media with this status needs no more work. -/
def ProcessingStatus.finished : ProcessingStatus → Bool
  | .completed | .failed => true
  | _ => false

inductive ProcessingStep
  | pending
  | claiming
  | downloading
  | verifying
  | probing
  | planning
  | processing
  | uploading
  | finalizing
  | completed
  | failed
  deriving DecidableEq, Repr

/-- A processing lease token is a random UUID. The model names it by a number. -/
abbrev LeaseToken := Nat

/-- One row of the media table with the defaults of the schema. -/
structure Media where
  id : String
  postId : String
  sortOrder : Nat
  mediaType : MediaType
  originalFilename : String
  originalExtension : String
  declaredMimeType : String
  detectedMimeType : String
  detectedFormat : String
  originalBucket : String
  originalObjectKey : String
  originalSize : Nat
  checksumSha256 : String
  processingProfile : String := "balanced-v1"
  processingGeneration : Nat := 1
  processingStatus : ProcessingStatus := .pending
  progress : Nat := 0
  currentStep : ProcessingStep := .pending
  processingStartedAt : Option Time := none
  processingCompletedAt : Option Time := none
  processingLeaseToken : Option LeaseToken := none
  processingLeaseExpiresAt : Option Time := none
  activeJobId : Option String := none
  lastErrorCode : Option String := none
  lastErrorMessage : Option String := none
  metadata : Option Json := none

namespace Media

/-- A media row carries a lease exactly while it is processing. -/
structure Leased (media : Media) : Prop where
  token : media.processingLeaseToken.isSome = true ↔ media.processingStatus = .processing
  expiry : media.processingLeaseExpiresAt.isSome = true ↔ media.processingStatus = .processing
  job : media.activeJobId.isSome = true ↔ media.processingStatus = .processing

/-- The row of a new upload. -/
structure Fresh (media : Media) : Prop where
  status : media.processingStatus = .pending
  generation : media.processingGeneration = 1
  token : media.processingLeaseToken = none
  expiry : media.processingLeaseExpiresAt = none
  job : media.activeJobId = none

theorem Fresh.leased {media : Media} (fresh : media.Fresh) : media.Leased :=
  ⟨by simp [fresh.token, fresh.status], by simp [fresh.expiry, fresh.status],
    by simp [fresh.job, fresh.status]⟩

end Media

end PostsMedia
