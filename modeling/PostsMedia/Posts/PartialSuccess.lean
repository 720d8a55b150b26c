import PostsMedia.Posts.Replay
import PostsMedia.Validation.Limits

namespace PostsMedia.Posts

open Validation (UploadedFile UploadConfiguration FileValidationOutcome MediaValidationResult
  maximumTotal totalUpTo validateFiles)

/-- How the database and the response write texts and records of the validation. -/
structure Encoding where
  text : Text → String
  metadata : List (String × Value) → Json
  details : List (String × Property Value) → Json

namespace Encoding

variable (encoding : Encoding)

def upload (upload : Validation.ValidatedUpload) : ValidatedUpload where
  fileIndex := upload.fileIndex
  originalFilename := encoding.text upload.originalFilename
  extension := upload.extension
  declaredMimeType := match upload.declaredMimeType with
    | .own mimeType => mimeType
    | .inherited name => encoding.text name
  detectedMimeType := upload.detectedMimeType
  detectedFormat := upload.detectedFormat
  mediaType := upload.mediaType
  sizeBytes := upload.sizeBytes
  checksumSha256 := upload.checksumSha256
  preliminaryMetadata := encoding.metadata upload.preliminaryMetadata

def error (error : Validation.FileValidationError) : FileValidationError where
  fileIndex := error.fileIndex
  originalFilename := encoding.text error.originalFilename
  code := error.code
  message := error.message
  details := error.details.map encoding.details

end Encoding

/-- What one call of add-media draws and computes beside its validation. -/
structure AddMediaCall where
  postId : String
  mediaId : Nat → String
  dispatchId : Nat → String
  originalRef : Nat → ObjectRef
  presentMedia : Media → Json

namespace AddMediaCall

variable (call : AddMediaCall) (encoding : Encoding) (files : List UploadedFile)
variable (result : MediaValidationResult)

/-- The uploads with their ids and originals after the promotion. -/
def promoted : List PromotedUpload :=
  result.validatedUploads.zipIdx.map fun (upload, index) =>
    { upload := encoding.upload upload
      mediaId := call.mediaId index
      dispatchId := call.dispatchId index
      originalRef := call.originalRef index }

def request : Request where
  call := .addPostMedia call.postId (call.promoted encoding result)
  submitted := files.length
  rejected := result.errors.map encoding.error

/-- The domain transaction of the call. -/
def transaction :
    Tables → Option ((Tables → Tables) × Idempotency.IdempotentOutcome) :=
  addPostMediaTransaction
    (addPostMediaResponse call.presentMedia call.postId (call.request encoding files result))
    call.postId (call.promoted encoding result)

end AddMediaCall

/-- The response counts every submitted file once. It presents the rows of the accepted files in
the order of their file indexes. -/
structure Balanced (call : AddMediaCall) (encoding : Encoding) (files : List UploadedFile)
    (result : MediaValidationResult) (start : Nat) (body : Json) : Prop where
  accepted : body.field "accepted" = some (.arr
    (result.validatedUploads.zipIdx.map fun (upload, index) => call.presentMedia
      (createWithDispatch (PromotedUpload.input
        ⟨encoding.upload upload, call.mediaId index, call.dispatchId index,
          call.originalRef index⟩ call.postId (start + index))).1))
  rejected : body.field "rejected" =
    some (.arr (result.errors.map fun error => (encoding.error error).toJson))
  summary : body.field "summary" = some (.obj
    [("submitted", .num files.length), ("accepted", .num result.validatedUploads.length),
      ("rejected", .num result.errors.length)])
  count : files.length = result.validatedUploads.length + result.errors.length
  ordered : (result.validatedUploads.map (·.fileIndex)).Pairwise (· < ·)

/-- The limits of one request and its response. -/
structure RequestLimits (configuration : UploadConfiguration) (files : List UploadedFile)
    (result : MediaValidationResult) : Prop where
  indexes : result.outcomes.map (·.fileIndex) = List.range files.length
  uploads : result.validatedUploads = result.outcomes.filterMap FileValidationOutcome.upload
  errors : result.errors = result.outcomes.filterMap FileValidationOutcome.failure
  count : ∀ (k : Nat) (outcome : FileValidationOutcome),
    configuration.maxFilesPerRequest ≤ k → result.outcomes[k]? = some outcome →
      outcome.RejectedWith "FILE_COUNT_EXCEEDED"
  total : ∀ (k : Nat) (file : UploadedFile) (outcome : FileValidationOutcome),
    k < configuration.maxFilesPerRequest → files[k]? = some file →
      result.outcomes[k]? = some outcome →
        (outcome.RejectedWith "TOTAL_UPLOAD_SIZE_EXCEEDED" ↔
          file.size.isSome = true ∧ totalUpTo files k > maximumTotal configuration)
  accepted : (result.validatedUploads.map (·.sizeBytes)).sum ≤ maximumTotal configuration
  response : ∀ (call : AddMediaCall) (encoding : Encoding) (tables : Tables)
    (apply : Tables → Tables) (outcome : Idempotency.IdempotentOutcome),
    call.transaction encoding files result tables = some (apply, outcome) →
      Balanced call encoding files result (tables.nextSortOrder call.postId) outcome.responseBody

section Proofs

open Validation (Completed outcomesFrom outcomeOf preflight outcomesFrom_eq)

variable {engine : Engine} {configuration : UploadConfiguration} {files : List UploadedFile}
variable {order : List Nat}

/-- Every outcome is an upload or a failure. -/
theorem length_outcomes (outcomes : List FileValidationOutcome) :
    outcomes.length =
      (outcomes.filterMap FileValidationOutcome.upload).length +
        (outcomes.filterMap FileValidationOutcome.failure).length := by
  induction outcomes with
  | nil => rfl
  | cons outcome rest ih =>
      cases outcome with
      | ok upload =>
          rw [List.filterMap_cons_some (FileValidationOutcome.upload_ok upload),
            List.filterMap_cons_none (FileValidationOutcome.failure_ok upload),
            List.length_cons, List.length_cons]
          omega
      | error error =>
          rw [List.filterMap_cons_none (FileValidationOutcome.upload_error error),
            List.filterMap_cons_some (FileValidationOutcome.failure_error error),
            List.length_cons, List.length_cons]
          omega

/-- The uploads keep the order of the outcomes. -/
theorem fileIndexes_sublist (outcomes : List FileValidationOutcome) :
    ((outcomes.filterMap FileValidationOutcome.upload).map (·.fileIndex)).Sublist
      (outcomes.map (·.fileIndex)) := by
  induction outcomes with
  | nil => exact List.Sublist.refl _
  | cons outcome rest ih =>
      cases outcome with
      | ok upload => exact ih.cons_cons _
      | error error => exact ih.cons _

theorem uploads_eq (files : List UploadedFile) :
    (validateFiles engine configuration order files).validatedUploads =
      (validateFiles engine configuration order files).outcomes.filterMap
        FileValidationOutcome.upload := by
  rw [List.filterMap_eq_flatMap_toList]
  apply List.flatMap_congr
  intro outcome _
  cases outcome <;> rfl

theorem errors_eq (files : List UploadedFile) :
    (validateFiles engine configuration order files).errors =
      (validateFiles engine configuration order files).outcomes.filterMap
        FileValidationOutcome.failure := by
  rw [List.filterMap_eq_flatMap_toList]
  apply List.flatMap_congr
  intro outcome _
  cases outcome <;> rfl

theorem outcomes_indexes (completed : Completed configuration order files) :
    (validateFiles engine configuration order files).outcomes.map (·.fileIndex) =
      List.range files.length := by
  apply List.ext_getElem?
  intro k
  rw [List.getElem?_map, Validation.outcomes_getElem?]
  cases found : files[k]? with
  | none =>
      have outside : files.length ≤ k := List.getElem?_eq_none_iff.mp found
      rw [List.getElem?_eq_none (by simpa using outside)]
      rfl
  | some file =>
      have inside : k < files.length := (List.getElem?_eq_some_iff.mp found).1
      rw [List.getElem?_range inside, Option.map_some, Option.map_some,
        Validation.outcome_fileIndex completed found]

theorem outcomes_length (completed : Completed configuration order files) :
    (validateFiles engine configuration order files).outcomes.length = files.length := by
  rw [← List.length_map FileValidationOutcome.fileIndex]
  exact (congrArg List.length (outcomes_indexes completed)).trans List.length_range

/-- Both parts of the outcomes make up the request. -/
theorem count_eq (completed : Completed configuration order files) :
    files.length = (validateFiles engine configuration order files).validatedUploads.length +
      (validateFiles engine configuration order files).errors.length := by
  rw [uploads_eq, errors_eq, ← length_outcomes, outcomes_length completed]

theorem fileIndexes_ordered (completed : Completed configuration order files) :
    ((validateFiles engine configuration order files).validatedUploads.map
      (·.fileIndex)).Pairwise (· < ·) := by
  rw [uploads_eq]
  apply List.Pairwise.sublist (fileIndexes_sublist _)
  rw [outcomes_indexes completed]
  exact List.pairwise_lt_range

/-- The fields of the response that speak about the files. -/
theorem addPostMediaResponse_fields (presentMedia : Media → Json) (postId : String)
    (request : Request) (media : List Media) :
    let body := addPostMediaResponse presentMedia postId request media
    body.field "accepted" = some (.arr (media.map presentMedia)) ∧
      body.field "rejected" = some (.arr (request.rejected.map (·.toJson))) ∧
      body.field "summary" = some (.obj [("submitted", .num request.submitted),
        ("accepted", .num media.length), ("rejected", .num request.rejected.length)]) :=
  ⟨rfl, rfl, rfl⟩

/-- The created rows follow the accepted files. -/
theorem created_eq (call : AddMediaCall) (encoding : Encoding) (result : MediaValidationResult)
    (start : Nat) :
    (createAllWithDispatch call.postId start (call.promoted encoding result)).map Prod.fst =
      result.validatedUploads.zipIdx.map fun (upload, index) =>
        (createWithDispatch (PromotedUpload.input
          ⟨encoding.upload upload, call.mediaId index, call.dispatchId index,
            call.originalRef index⟩ call.postId (start + index))).1 := by
  apply List.ext_getElem?
  intro k
  simp only [createAllWithDispatch, AddMediaCall.promoted, List.getElem?_map, List.getElem?_zipIdx]
  cases result.validatedUploads[k]? <;> simp

/-- The rows of the transaction are those of the accepted files in their order. -/
theorem balanced_of_transaction (call : AddMediaCall) (encoding : Encoding)
    (completed : Completed configuration order files) {tables : Tables}
    {apply : Tables → Tables} {outcome : Idempotency.IdempotentOutcome}
    (went : call.transaction encoding files (validateFiles engine configuration order files)
      tables = some (apply, outcome)) :
    Balanced call encoding files (validateFiles engine configuration order files)
      (tables.nextSortOrder call.postId) outcome.responseBody := by
  unfold AddMediaCall.transaction addPostMediaTransaction at went
  dsimp only at went
  split at went
  · cases went
    have rows := created_eq call encoding (validateFiles engine configuration order files)
      (tables.nextSortOrder call.postId)
    obtain ⟨accepted, rejected, summary⟩ := addPostMediaResponse_fields call.presentMedia
      call.postId (call.request encoding files (validateFiles engine configuration order files))
      ((createAllWithDispatch call.postId (tables.nextSortOrder call.postId)
        (call.promoted encoding (validateFiles engine configuration order files))).map Prod.fst)
    refine ⟨accepted.trans ?_, rejected.trans ?_, summary.trans ?_, count_eq completed,
      fileIndexes_ordered completed⟩
    · rw [rows, List.map_map]
      rfl
    · rw [AddMediaCall.request, List.map_map]
      rfl
    · rw [rows]
      simp [AddMediaCall.request]
  · cases went

/-- The validation of a request keeps its limits, and add-media answers for every file. -/
theorem validateFiles_limits (engine : Engine) (configuration : UploadConfiguration)
    (files : List UploadedFile) (order : List Nat)
    (completed : Completed configuration order files) :
    RequestLimits configuration files (validateFiles engine configuration order files) where
  indexes := outcomes_indexes completed
  uploads := uploads_eq files
  errors := errors_eq files
  count k outcome outside found := by
    rw [Validation.outcomes_getElem?] at found
    obtain ⟨file, submitted, rfl⟩ := Option.map_eq_some_iff.mp found
    exact Validation.rejected_count completed submitted outside
  total k file outcome inside submitted found := by
    rw [Validation.outcomes_getElem?, submitted] at found
    cases found
    exact Validation.rejected_total_iff completed submitted inside
  accepted := by
    have bound : Validation.acceptedTotal
        ((validateFiles engine configuration order files).outcomes.take files.length) ≤
          maximumTotal configuration :=
      (Validation.acceptedTotal_le completed files.length).2
    rw [List.take_of_length_le (outcomes_length completed).le] at bound
    rw [uploads_eq]
    exact bound
  response call encoding _ _ _ went := balanced_of_transaction call encoding completed went

open Validation (sampleEngine sampleConfiguration samplePhoto)

/-- Three files under a limit of two: one is accepted, one cannot be read, and one is too many. -/
def threePhotos : List UploadedFile := [samplePhoto, { samplePhoto with size := none }, samplePhoto]

/-- Names of ASCII letters are the same text in the database. -/
def asciiEncoding : Encoding where
  text text := String.ofList (text.map fun unit => Char.ofNat unit.toNat)
  metadata _ := .null
  details _ := .null

/-- A call that adds files to one post. -/
def albumCall : AddMediaCall where
  postId := "post-0"
  mediaId index := "media-" ++ toString index
  dispatchId index := "dispatch-" ++ toString index
  originalRef index := ⟨"originals", "media-" ++ toString index⟩
  presentMedia media := .str media.id

def albumTables : Tables :=
  ⟨[{ id := "post-0", title := "Title", content := "", createdAt := 0, updatedAt := 0 }], [], []⟩

theorem threePhotos_limits :
    (validateFiles sampleEngine sampleConfiguration [1, 0] threePhotos).outcomes.map
        (fun outcome => outcome.failure.map (·.code)) =
      [none, some "CORRUPTED_FILE", some "FILE_COUNT_EXCEEDED"] ∧
    RequestLimits sampleConfiguration threePhotos
      (validateFiles sampleEngine sampleConfiguration [1, 0] threePhotos) ∧
    ∃ apply outcome, albumCall.transaction asciiEncoding threePhotos
        (validateFiles sampleEngine sampleConfiguration [1, 0] threePhotos) albumTables =
          some (apply, outcome) ∧
      outcome.responseBody.field "summary" = some (.obj
        [("submitted", .num 3), ("accepted", .num 1), ("rejected", .num 2)]) := by
  have limits := validateFiles_limits sampleEngine sampleConfiguration threePhotos [1, 0]
    (by unfold Completed; decide)
  have counts : (validateFiles sampleEngine sampleConfiguration [1, 0]
        threePhotos).validatedUploads.length = 1 ∧
      (validateFiles sampleEngine sampleConfiguration [1, 0] threePhotos).errors.length = 2 := by
    decide +kernel
  refine ⟨by decide +kernel, limits, _, _, rfl, ?_⟩
  have summary := (limits.response albumCall asciiEncoding albumTables _ _ rfl).summary
  rw [counts.1, counts.2] at summary
  exact summary

end Proofs

end PostsMedia.Posts
