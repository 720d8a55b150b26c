import PostsMedia.Queues.Dispatch
import PostsMedia.Storage.ObjectKey

namespace PostsMedia

structure CreateMediaWithDispatchInput where
  id : String
  postId : String
  sortOrder : Nat
  mediaType : MediaType
  originalFilename : String
  originalExtension : String
  declaredMimeType : String
  detectedMimeType : String
  detectedFormat : String
  originalBucket : String
  originalObjectKey : String
  originalSize : Nat
  checksumSha256 : String
  metadata : Json
  dispatchId : String

/-- A new media row is pending at generation one and has one dispatch for that generation. -/
def createWithDispatch (input : CreateMediaWithDispatchInput) : Media × ProcessingDispatch :=
  ({ id := input.id
     postId := input.postId
     sortOrder := input.sortOrder
     mediaType := input.mediaType
     originalFilename := input.originalFilename
     originalExtension := input.originalExtension
     declaredMimeType := input.declaredMimeType
     detectedMimeType := input.detectedMimeType
     detectedFormat := input.detectedFormat
     originalBucket := input.originalBucket
     originalObjectKey := input.originalObjectKey
     originalSize := input.originalSize
     checksumSha256 := input.checksumSha256
     metadata := some input.metadata },
   .ofPayload
    { dispatchId := input.dispatchId
      mediaId := input.id
      postId := input.postId
      mediaType := input.mediaType
      generation := 1
      processingProfile := "balanced-v1"
      reason := .initialUpload })

/-- The row of a new upload is fresh. -/
theorem createWithDispatch_fresh (input : CreateMediaWithDispatchInput) :
    (createWithDispatch input).1.Fresh := ⟨rfl, rfl, rfl, rfl, rfl⟩

/-- A small image of a first post. -/
def sampleInput : CreateMediaWithDispatchInput where
  id := "media-0"
  postId := "post-0"
  sortOrder := 0
  mediaType := .image
  originalFilename := "photo.png"
  originalExtension := "png"
  declaredMimeType := "image/png"
  detectedMimeType := "image/png"
  detectedFormat := "png"
  originalBucket := "originals"
  originalObjectKey := "posts/post-0/media-0/original.png"
  originalSize := 3
  checksumSha256 := "checksum"
  metadata := .null
  dispatchId := "dispatch-0"

/-- An upload that passed the validation of its request. -/
structure ValidatedUpload where
  fileIndex : Nat
  originalFilename : String
  extension : String
  declaredMimeType : String
  detectedMimeType : String
  detectedFormat : String
  mediaType : MediaType
  sizeBytes : Nat
  checksumSha256 : String
  preliminaryMetadata : Json

/-- An upload with its random ids and its promoted original. -/
structure PromotedUpload where
  upload : ValidatedUpload
  mediaId : String
  dispatchId : String
  originalRef : ObjectRef

/-- The row input that create-post and add-media build for one promoted upload. -/
def PromotedUpload.input (promoted : PromotedUpload) (postId : String) (sortOrder : Nat) :
    CreateMediaWithDispatchInput where
  id := promoted.mediaId
  postId := postId
  sortOrder := sortOrder
  mediaType := promoted.upload.mediaType
  originalFilename := promoted.upload.originalFilename
  originalExtension := promoted.upload.extension
  declaredMimeType := promoted.upload.declaredMimeType
  detectedMimeType := promoted.upload.detectedMimeType
  detectedFormat := promoted.upload.detectedFormat
  originalBucket := promoted.originalRef.bucket
  originalObjectKey := promoted.originalRef.objectKey
  originalSize := promoted.upload.sizeBytes
  checksumSha256 := promoted.upload.checksumSha256
  metadata := promoted.upload.preliminaryMetadata
  dispatchId := promoted.dispatchId

/-- Both services create their rows in upload order from a first sort position. -/
def createAllWithDispatch (postId : String) (start : Nat) (promoted : List PromotedUpload) :
    List (Media × ProcessingDispatch) :=
  promoted.zipIdx.map fun (upload, index) =>
    createWithDispatch (upload.input postId (start + index))

@[simp] theorem createAllWithDispatch_length (postId : String) (start : Nat)
    (promoted : List PromotedUpload) :
    (createAllWithDispatch postId start promoted).length = promoted.length := by
  simp [createAllWithDispatch]

end PostsMedia
