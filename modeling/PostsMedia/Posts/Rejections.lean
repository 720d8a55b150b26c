import PostsMedia.Idempotency.Record

namespace PostsMedia.Posts

open Idempotency

/-- The report on one rejected file. -/
structure FileValidationError where
  fileIndex : Nat
  originalFilename : String
  code : String
  message : String
  details : Option Json := none

def FileValidationError.toJson (error : FileValidationError) : Json :=
  .obj ([("fileIndex", .num error.fileIndex), ("originalFilename", .str error.originalFilename),
    ("code", .str error.code), ("message", .str error.message)] ++
    match error.details with
    | some details => [("details", details)]
    | none => [])

def postNotFound : DomainError where
  code := "POST_NOT_FOUND"
  message := "The requested post does not exist."
  httpStatus := 404

def postSoftDeleted : DomainError where
  code := "POST_SOFT_DELETED"
  message := "Media cannot be added to a deleted post."
  httpStatus := 409

/-- The details that both validation errors carry. -/
def rejectionDetails (rejected : List FileValidationError) (submitted : Nat) : Json :=
  .obj [("submitted", .num submitted), ("rejected", .arr (rejected.map (·.toJson)))]

/-- Create-post rejects the whole request. -/
def validationFailedError (rejected : List FileValidationError) (submitted : Nat) :
    DomainError where
  code := "POST_MEDIA_VALIDATION_FAILED"
  message := "The post was not created because one or more files are invalid."
  httpStatus := 422
  details := some (rejectionDetails rejected submitted)

/-- Add-media rejects the request when no file is accepted. -/
def noFilesAcceptedError (rejected : List FileValidationError) (submitted : Nat) : DomainError where
  code := "POST_MEDIA_VALIDATION_FAILED"
  message := "No files were accepted; every submitted file is invalid."
  httpStatus := 422
  details := some (rejectionDetails rejected submitted)

end PostsMedia.Posts
