import PostsMedia.Media.Repository
import PostsMedia.Processing.Claims

namespace PostsMedia

def ProcessingStatus.text : ProcessingStatus → String
  | .pending => "PENDING"
  | .processing => "PROCESSING"
  | .completed => "COMPLETED"
  | .failed => "FAILED"

def ProcessingStep.text : ProcessingStep → String
  | .pending => "PENDING"
  | .claiming => "CLAIMING"
  | .downloading => "DOWNLOADING"
  | .verifying => "VERIFYING"
  | .probing => "PROBING"
  | .planning => "PLANNING"
  | .processing => "PROCESSING"
  | .uploading => "UPLOADING"
  | .finalizing => "FINALIZING"
  | .completed => "COMPLETED"
  | .failed => "FAILED"

def MediaVariantType.text : MediaVariantType → String
  | .optimizedImage => "OPTIMIZED_IMAGE"
  | .imageThumbnail => "IMAGE_THUMBNAIL"
  | .normalizedAudio => "NORMALIZED_AUDIO"
  | .video360p => "VIDEO_360P"
  | .video720p => "VIDEO_720P"
  | .video1080p => "VIDEO_1080P"
  | .videoSource => "VIDEO_SOURCE"
  | .videoThumbnail => "VIDEO_THUMBNAIL"

structure MediaVariantResponseDto where
  variantType : String
  mimeType : String
  format : String
  width : Option Nat
  height : Option Nat
  bitrateKbps : Option Nat
  resolutionLabel : Option String

structure MediaLastErrorDto where
  code : String
  message : String

structure MediaLinksDto where
  self : String
  status : String
  access : String
  retry : Option String := none

structure MediaResponseDto where
  id : String
  postId : String
  sortOrder : Nat
  mediaType : String
  originalFilename : String
  detectedMimeType : String
  originalSize : String
  checksumSha256 : String
  processingProfile : String
  processingGeneration : Nat
  processingStatus : String
  progress : Nat
  currentStep : String
  metadata : Option Json
  variants : List MediaVariantResponseDto
  lastError : Option MediaLastErrorDto
  links : MediaLinksDto

def presentVariant (variant : MediaVariant) : MediaVariantResponseDto where
  variantType := variant.variantType.text
  mimeType := variant.mimeType
  format := variant.format
  width := variant.width
  height := variant.height
  bitrateKbps := variant.bitrateKbps
  resolutionLabel := variant.resolutionLabel

/-- A client sees an error only when the row has a code and a message. -/
def presentLastError (media : Media) : Option MediaLastErrorDto :=
  match media.lastErrorCode, media.lastErrorMessage with
  | some code, some message => some ⟨code, message⟩
  | _, _ => none

/-- Only failed media can be retried. -/
def presentLinks (media : Media) : MediaLinksDto where
  self := s!"/api/media/{media.id}"
  status := s!"/api/media/{media.id}/status"
  access := s!"/api/media/{media.id}/access"
  retry :=
    if media.processingStatus = .failed then some s!"/api/media/{media.id}/retry" else none

/-- The response for one media row with its variants. Buckets and object keys stay inside. -/
def presentMedia (media : Media) (variants : List MediaVariant) : MediaResponseDto where
  id := media.id
  postId := media.postId
  sortOrder := media.sortOrder
  mediaType := media.mediaType.text
  originalFilename := media.originalFilename
  detectedMimeType := media.detectedMimeType
  originalSize := toString media.originalSize
  checksumSha256 := media.checksumSha256
  processingProfile := media.processingProfile
  processingGeneration := media.processingGeneration
  processingStatus := media.processingStatus.text
  progress := media.progress
  currentStep := media.currentStep.text
  metadata := Json.nullish media.metadata
  variants := variants.map presentVariant
  lastError := presentLastError media
  links := presentLinks media

/-- A message that reveals no path, no output of a tool and no other detail. -/
def SafeMessage (message : String) : Prop :=
  message = "Media processing failed." ∨
    message.length ≤ 1000 ∧
      (∃ start ∈ Processing.safePrefixes, start.toList <+: message.toList) ∧
      ∀ c ∈ message.toList, c.isUpper ∨ c.isDigit ∨ c = '_'

namespace Processing

/-- The safe prefixes are themselves of capitals and underscores, and short. -/
theorem safePrefixes_plain : ∀ start ∈ safePrefixes,
    start.length ≤ 1000 ∧ start.toList.all (fun c => c.isUpper || c.isDigit || c = '_') := by
  decide

/-- Nothing but a safe message is stored, whatever a tool or a driver reports. -/
theorem safeMessage_of_error (message : String) :
    SafeMessage (safeProcessingErrorMessage message) := by
  simp only [safeProcessingErrorMessage]
  split
  · rename_i safe
    right
    obtain ⟨start, member, found⟩ := List.any_eq_true.mp safe
    simp only [Bool.and_eq_true, decide_eq_true_eq, List.all_eq_true, Bool.or_eq_true] at found
    obtain ⟨⟨begins, _⟩, plain⟩ := found
    obtain ⟨rest, split⟩ := List.isPrefixOf_iff_prefix.mp begins
    obtain ⟨short, capitals⟩ := safePrefixes_plain start member
    rw [← String.length_toList] at short
    rw [← String.length_toList, ← split, List.drop_left] at plain
    rw [← split]
    refine ⟨?_, ⟨start, member, ?_⟩, fun c inside => ?_⟩
    · rw [String.length_ofList]
      exact List.length_take_le 1000 _
    · rw [String.toList_ofList, List.take_append, List.take_of_length_le short]
      exact List.prefix_append _ _
    · rw [String.toList_ofList] at inside
      rcases List.mem_append.mp (List.mem_of_mem_take inside) with first | later
      · simpa [or_assoc] using List.all_eq_true.mp capitals c first
      · simpa [or_assoc] using plain c later
  · exact .inl rfl

end Processing

theorem ProcessingStatus.text_injective : Function.Injective ProcessingStatus.text := by
  intro status status' same
  cases status <;> cases status' <;> first | rfl | exact absurd same (by decide)

/-- The fields of a response fit together. -/
structure MediaResponseDto.Consistent (response : MediaResponseDto) : Prop where
  safe : ∀ error, response.lastError = some error → SafeMessage error.message
  pending : response.processingStatus = "PENDING" →
    response.progress = 0 ∧ response.currentStep = "PENDING"
  processing : response.processingStatus = "PROCESSING" → response.currentStep = "CLAIMING"
  completed : response.processingStatus = "COMPLETED" →
    response.progress = 100 ∧ response.currentStep = "COMPLETED" ∧ response.lastError.isSome = false
  failed : response.processingStatus = "FAILED" →
    response.progress = 100 ∧ response.currentStep = "FAILED" ∧ response.lastError.isSome = true
  retry : response.links.retry.isSome = true ↔ response.processingStatus = "FAILED"

namespace Media

open Processing

/-- What a client reads in the columns of one row fits together. -/
structure Coherent (media : Media) : Prop where
  errors : media.lastErrorCode.isSome = media.lastErrorMessage.isSome
  safe : ∀ message, media.lastErrorMessage = some message → SafeMessage message
  pending : media.processingStatus = .pending → media.progress = 0 ∧ media.currentStep = .pending
  processing : media.processingStatus = .processing → media.currentStep = .claiming
  completed : media.processingStatus = .completed →
    media.progress = 100 ∧ media.currentStep = .completed ∧ media.lastErrorCode = none
  failed : media.processingStatus = .failed →
    media.progress = 100 ∧ media.currentStep = .failed ∧ media.lastErrorCode.isSome = true

variable {media : Media}

theorem coherent_created (input : CreateMediaWithDispatchInput) :
    (createWithDispatch input).1.Coherent where
  errors := rfl
  safe _ stored := by cases stored
  pending _ := ⟨rfl, rfl⟩
  processing status := by cases status
  completed status := by cases status
  failed status := by cases status

/-- A claim keeps the last error and the progress. -/
theorem Coherent.claimed (coherent : media.Coherent) (jobId : String) (leaseSeconds : Nat)
    (token : LeaseToken) (now : Time) : (media.claimed jobId leaseSeconds token now).Coherent where
  errors := coherent.errors
  safe := coherent.safe
  pending status := by cases status
  processing _ := rfl
  completed status := by cases status
  failed status := by cases status

theorem Coherent.renewed (coherent : media.Coherent) (leaseSeconds : Nat) (now : Time) :
    (media.renewed leaseSeconds now).Coherent :=
  { coherent with }

theorem coherent_completed (media : Media) (metadata : Option Json) (now : Time) :
    (media.completed metadata now).Coherent where
  errors := rfl
  safe _ stored := by cases stored
  pending status := by cases status
  processing status := by cases status
  completed _ := ⟨rfl, rfl, rfl⟩
  failed status := by cases status

theorem coherent_failed (media : Media) (final : Bool) (errorCode errorMessage : String) :
    (media.failed final errorCode errorMessage).Coherent where
  errors := rfl
  safe message stored := by
    cases stored
    exact safeMessage_of_error errorMessage
  pending status := by
    cases final
    · exact ⟨rfl, rfl⟩
    · cases status
  processing status := by cases final <;> cases status
  completed status := by cases final <;> cases status
  failed status := by
    cases final
    · cases status
    · exact ⟨rfl, rfl, rfl⟩

theorem coherent_retried (media : Media) : media.retried.Coherent where
  errors := rfl
  safe _ stored := by cases stored
  pending _ := ⟨rfl, rfl⟩
  processing status := by cases status
  completed status := by cases status
  failed status := by cases status

/-- No operation of a worker breaks the coherence. -/
theorem Coherent.run {rows : Rows} (coherent : rows.media.Coherent) (operation : Operation)
    (generation : Nat) (token : LeaseToken) (now : Time) :
    (operation.run rows generation token now).1.media.Coherent := by
  cases operation <;> simp only [Operation.run] <;> split
  · exact coherent.renewed _ now
  · exact coherent
  · exact coherent_completed ..
  · exact coherent
  · exact coherent_failed ..
  · exact coherent
  · exact coherent_completed ..
  · exact coherent

theorem Coherent.lastError_isSome (coherent : media.Coherent) :
    (presentLastError media).isSome = media.lastErrorCode.isSome := by
  have both := coherent.errors
  unfold presentLastError
  cases code : media.lastErrorCode <;> cases message : media.lastErrorMessage <;>
    simp_all

/-- A coherent row has a consistent response. -/
theorem Coherent.consistent (coherent : media.Coherent) (variants : List MediaVariant) :
    (presentMedia media variants).Consistent where
  safe error shown := by
    simp only [presentMedia, presentLastError] at shown
    split at shown <;> cases shown
    rename_i stored
    exact coherent.safe _ stored
  pending shown := by
    have status : media.processingStatus = .pending := ProcessingStatus.text_injective shown
    obtain ⟨progress, step⟩ := coherent.pending status
    exact ⟨progress, congrArg ProcessingStep.text step⟩
  processing shown := by
    have status : media.processingStatus = .processing := ProcessingStatus.text_injective shown
    exact congrArg ProcessingStep.text (coherent.processing status)
  completed shown := by
    have status : media.processingStatus = .completed := ProcessingStatus.text_injective shown
    obtain ⟨progress, step, error⟩ := coherent.completed status
    refine ⟨progress, congrArg ProcessingStep.text step, ?_⟩
    exact coherent.lastError_isSome.trans (congrArg Option.isSome error)
  failed shown := by
    have status : media.processingStatus = .failed := ProcessingStatus.text_injective shown
    obtain ⟨progress, step, error⟩ := coherent.failed status
    exact ⟨progress, congrArg ProcessingStep.text step, coherent.lastError_isSome.trans error⟩
  retry := by
    constructor
    · intro offered
      by_contra other
      have status : media.processingStatus ≠ .failed :=
        fun status => other (congrArg ProcessingStatus.text status)
      simp [presentMedia, presentLinks, status] at offered
    · intro shown
      have status : media.processingStatus = .failed := ProcessingStatus.text_injective shown
      simp [presentMedia, presentLinks, status]

end Media

end PostsMedia
