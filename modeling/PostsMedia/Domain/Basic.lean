import Mathlib.Logic.Basic

namespace PostsMedia

/-- Times and durations are milliseconds of one shared clock. -/
abbrev Time := Nat

/-- The delay of `setTimeout` and `setInterval`. Node.js turns one that is no positive number of 31
bits into a millisecond. -/
def timerDelay (ms : Time) : Time := if 1 ≤ ms ∧ ms ≤ 2147483647 then ms else 1

/-- What a `uuid` column reads back. PostgreSQL prints lower-case digits. -/
def uuidColumn (id : String) : String := String.ofList (id.toList.map Char.toLower)

/-- A stored JSON document. -/
inductive Json
  | null
  | bool (value : Bool)
  | num (value : Int)
  | str (value : String)
  | arr (items : List Json)
  | obj (fields : List (String × Json))

/-- The JavaScript `??` treats a stored JSON null like an absent value. -/
def Json.nullish : Option Json → Option Json
  | some .null => none
  | other => other

/-- The value of one field of a document. Only an object has fields. -/
def Json.field (name : String) : Json → Option Json
  | .obj fields => fields.lookup name
  | _ => none

/-- The stable error codes, in the order of the source. -/
def errorCodes : List String :=
  ["INTERNAL_ERROR", "VALIDATION_FAILED", "IDEMPOTENCY_KEY_REQUIRED", "IDEMPOTENCY_KEY_INVALID",
    "IDEMPOTENCY_KEY_REUSED", "IDEMPOTENCY_REQUEST_IN_PROGRESS", "POST_NOT_FOUND",
    "POST_SOFT_DELETED", "POST_MEDIA_VALIDATION_FAILED", "MEDIA_NOT_FOUND",
    "MEDIA_RETRY_NOT_ALLOWED", "MULTIPART_BODY_INVALID", "UNEXPECTED_FILE_FIELD",
    "FILE_COUNT_EXCEEDED", "TOTAL_UPLOAD_SIZE_EXCEEDED", "FILE_TRANSPORT_SIZE_EXCEEDED",
    "EMPTY_FILE", "INVALID_ORIGINAL_FILENAME", "MISSING_EXTENSION", "UNSUPPORTED_EXTENSION",
    "UNSUPPORTED_MIME_TYPE", "UNKNOWN_FILE_SIGNATURE", "FILE_SIGNATURE_MISMATCH",
    "CORRUPTED_FILE", "ANIMATED_IMAGE_NOT_SUPPORTED", "IMAGE_PIXEL_LIMIT_EXCEEDED",
    "MEDIA_STREAM_NOT_FOUND", "UNSUPPORTED_AUDIO_CODEC", "UNSUPPORTED_VIDEO_CODEC",
    "MEDIA_VALIDATION_TIMEOUT", "FILE_SIZE_EXCEEDED", "TEMPORARY_FILE_WRITE_FAILED",
    "CHECKSUM_CALCULATION_FAILED", "STORAGE_UNAVAILABLE", "ORIGINAL_PROMOTION_FAILED",
    "QUEUE_DISPATCH_DEAD", "PROCESSING_TIMEOUT", "PROCESSING_OUTPUT_INVALID",
    "PROCESSING_CHECKSUM_MISMATCH"]

/-- The error that the HTTP layer reports to a client. -/
structure DomainError where
  code : String
  message : String
  httpStatus : Nat
  details : Option Json := none

inductive MediaType
  | image
  | audio
  | video
  deriving DecidableEq, Repr

/-- A database statement succeeds, has no effect, or takes effect while the caller sees an error. -/
inductive Fate
  | ok
  | refused
  | unacknowledged
  deriving DecidableEq, Repr

/-- The statement changed the database, whatever the caller saw. -/
def Fate.tookEffect : Fate → Bool
  | .refused => false
  | _ => true

end PostsMedia
