import PostsMedia.Validation.Files

namespace PostsMedia.Validation

/-- The codes of the errors that the validation of one file throws. -/
def fileCodes : List String :=
  ["EMPTY_FILE", "INVALID_ORIGINAL_FILENAME", "MISSING_EXTENSION", "UNSUPPORTED_EXTENSION",
    "UNSUPPORTED_MIME_TYPE", "UNKNOWN_FILE_SIGNATURE", "FILE_SIGNATURE_MISMATCH",
    "CORRUPTED_FILE", "ANIMATED_IMAGE_NOT_SUPPORTED", "IMAGE_PIXEL_LIMIT_EXCEEDED",
    "MEDIA_STREAM_NOT_FOUND", "UNSUPPORTED_AUDIO_CODEC", "UNSUPPORTED_VIDEO_CODEC",
    "MEDIA_VALIDATION_TIMEOUT", "FILE_SIZE_EXCEEDED", "CHECKSUM_CALCULATION_FAILED"]

/-- The error has the code of a single file. -/
def ValidationError.OfFile (error : ValidationError) : Prop := error.code ∈ fileCodes

instance (error : ValidationError) : Decidable error.OfFile :=
  inferInstanceAs (Decidable (_ ∈ _))

namespace Attempt

variable {α β : Type} {attempt : Attempt α} {error : ValidationError}

/-- Whatever is thrown has the code of a single file. -/
def OfFile (attempt : Attempt α) : Prop :=
  ∀ error, attempt = .error (.domain error) → error.OfFile

theorem ofFile_ok (value : α) : OfFile (.ok value) := by
  intro error thrown
  cases thrown

theorem ofFile_native : OfFile (native : Attempt α) := by
  intro error thrown
  cases thrown

theorem ofFile_reject (known : error.OfFile) : OfFile (reject error : Attempt α) := by
  intro other thrown
  cases thrown
  exact known

theorem OfFile.bind (known : OfFile attempt) {next : α → Attempt β}
    (later : ∀ value, OfFile (next value)) : OfFile (attempt >>= next) := by
  intro error thrown
  cases attempt with
  | error first =>
      cases thrown
      exact known _ rfl
  | ok value => exact later value error thrown

theorem OfFile.map (known : OfFile attempt) (f : α → β) : OfFile (attempt.map f) := by
  intro error thrown
  cases attempt with
  | error first =>
      cases thrown
      exact known _ rfl
  | ok value => cases thrown

theorem ofFile_throwIf (condition : Bool) (known : error.OfFile) :
    OfFile (throwIf condition error) := by
  cases condition with
  | false => exact ofFile_ok ()
  | true => exact ofFile_reject known

theorem ofFile_ofOption (value : Option α) : OfFile (ofOption value) := by
  cases value with
  | none => exact ofFile_native
  | some value => exact ofFile_ok value

theorem ofFile_ofExcept {result : Except ValidationError α}
    (known : ∀ error, result = .error error → error.OfFile) : OfFile (ofExcept result) := by
  cases result with
  | ok value => exact ofFile_ok value
  | error error => exact ofFile_reject (known error rfl)

end Attempt

open Attempt

section Names

variable {engine : Engine} {text : Text} {error : ValidationError}

theorem normalizeOriginalFilename_ofFile (thrown : normalizeOriginalFilename text = .error error) :
    error.OfFile := by
  unfold normalizeOriginalFilename at thrown
  dsimp only at thrown
  split at thrown <;> cases thrown
  decide

theorem resolveExtensionPolicy_ofFile
    (thrown : resolveExtensionPolicy engine text = .error error) : error.OfFile := by
  unfold resolveExtensionPolicy at thrown
  cases normalized : normalizeOriginalFilename text with
  | error first =>
      rw [normalized] at thrown
      cases thrown
      exact normalizeOriginalFilename_ofFile normalized
  | ok normalized' =>
      rw [normalized] at thrown
      simp only [Except.bind] at thrown
      split at thrown
      · cases thrown
        decide
      · cases thrown
        decide
      · split at thrown
        · cases thrown
          decide
        · split at thrown <;> cases thrown
          exact (by decide : "UNSUPPORTED_EXTENSION" ∈ fileCodes)

theorem canonicalizeDeclaredMimeType_ofFile
    (thrown : canonicalizeDeclaredMimeType engine text = .error error) : error.OfFile := by
  unfold canonicalizeDeclaredMimeType at thrown
  dsimp only at thrown
  split at thrown <;> cases thrown
  exact (by decide : "UNSUPPORTED_MIME_TYPE" ∈ fileCodes)

/-- An error does not come from a branch that succeeds. -/
theorem error_of_ite {α ε : Type} {condition : Prop} [Decidable condition] {value : α} {error : ε}
    {other : Except ε α} (thrown : (if condition then .ok value else other) = .error error) :
    other = .error error := by
  split at thrown
  · cases thrown
  · exact thrown

theorem detect_ofFile {header : Option Bytes} (thrown : detect header = .error error) :
    error.OfFile := by
  cases header with
  | none =>
      cases thrown
      decide
  | some header =>
      rw [detect, detectHeaderSignature] at thrown
      by_cases empty : header.length = 0
      · rw [if_pos empty] at thrown
        cases thrown
        decide
      · rw [if_neg empty] at thrown
        iterate 10 replace thrown := error_of_ite thrown
        cases thrown
        decide

end Names

section Inspectors

variable {engine : Engine} {configuration : UploadConfiguration} {streams : List Value}

theorem inspectImage_ofFile {maxPixels : Nat} {metadata : Option SharpMetadata} {decodes : Bool}
    {error : ValidationError} (thrown : inspectImage maxPixels metadata decodes = .error error) :
    error.OfFile := by
  unfold inspectImage at thrown
  split at thrown
  · cases thrown
    decide
  · dsimp only at thrown
    split at thrown
    · split at thrown
      · cases thrown
        decide
      · unfold assertImageSafety at thrown
        dsimp only at thrown
        split at thrown
        · cases thrown
          exact (by decide : "ANIMATED_IMAGE_NOT_SUPPORTED" ∈ fileCodes)
        · split at thrown
          · cases thrown
            exact (by decide : "IMAGE_PIXEL_LIMIT_EXCEEDED" ∈ fileCodes)
          · rw [Except.bind] at thrown
            split at thrown <;> cases thrown
            decide
    · cases thrown
      decide

theorem checkAudioCodecs_ofFile : OfFile (checkAudioCodecs streams) := by
  induction streams with
  | nil => exact ofFile_ok ()
  | cons stream rest ih =>
      rw [checkAudioCodecs]
      split
      · exact ofFile_reject (by decide)
      · split
        · exact ofFile_reject (by decide : "UNSUPPORTED_AUDIO_CODEC" ∈ fileCodes)
        · exact ih
      · exact ofFile_native

theorem checkVideoCodecs_ofFile : OfFile (checkVideoCodecs streams) := by
  induction streams with
  | nil => exact ofFile_ok ()
  | cons stream rest ih =>
      rw [checkVideoCodecs]
      split
      · exact ofFile_reject (by decide)
      · split
        · exact ofFile_reject (by decide : "UNSUPPORTED_VIDEO_CODEC" ∈ fileCodes)
        · exact ih

theorem streamsOf_ofFile (document : Value) : OfFile (streamsOf document) := by
  refine (ofFile_ofOption _).bind fun value => ?_
  split
  · exact ofFile_ok _
  · exact ofFile_native

theorem streamsOfType_ofFile (kind : String) : OfFile (streamsOfType kind streams) := by
  induction streams with
  | nil => exact ofFile_ok _
  | cons stream rest ih =>
      exact (ofFile_ofOption _).bind fun _ => ih.bind fun _ => ofFile_ok _

theorem formatNamesOf_ofFile (document : Value) : OfFile (formatNamesOf document) := by
  refine (ofFile_ofOption _).bind fun value => ?_
  split
  · exact ofFile_ok _
  · exact ofFile_native

theorem formatOf_ofFile {signature : SignatureDetection} {audio video : List Value} :
    OfFile (formatOf signature audio video) := by
  unfold formatOf
  split
  · exact ofFile_ok _
  · exact ofFile_reject (by decide)

theorem streamsDuration_ofFile {maximum : Number} :
    OfFile (streamsDuration engine maximum streams) := by
  induction streams generalizing maximum with
  | nil => exact ofFile_ok _
  | cons stream rest ih => exact (ofFile_ofOption _).bind fun _ => ih

theorem mediaDuration_ofFile {document : Value} :
    OfFile (mediaDuration engine document streams) := by
  refine (ofFile_ofOption _).bind fun format => (ofFile_ofOption _).bind fun duration => ?_
  split
  · exact ofFile_ok _
  · exact streamsDuration_ofFile

theorem maximumFrom_ofFile {maximum : Value} : OfFile (maximumFrom engine maximum streams) := by
  fun_induction maximumFrom engine maximum streams with
  | case1 => exact ofFile_ok _
  | case2 _ _ ih => exact ih
  | case3 _ _ _ ih => exact ih
  | case4 _ _ _ _ _ ih => exact (ofFile_ofOption _).bind fun _ => ih _

theorem validateDocument_ofFile {document : Value} {mediaType : MediaType}
    {expectedFormat : String} {signature : SignatureDetection} :
    OfFile (validateDocument engine document mediaType expectedFormat signature) := by
  unfold validateDocument
  refine (streamsOf_ofFile _).bind fun streams => ?_
  refine (streamsOfType_ofFile _).bind fun audioStreams => ?_
  refine (streamsOfType_ofFile _).bind fun videoStreams => ?_
  refine (formatNamesOf_ofFile _).bind fun formatNames => ?_
  refine formatOf_ofFile.bind fun actualFormat => ?_
  have mismatch : (fileSignatureMismatch (some actualFormat)).OfFile :=
    (by decide : "FILE_SIGNATURE_MISMATCH" ∈ fileCodes)
  refine (ofFile_throwIf _ mismatch).bind fun _ => ?_
  refine (ofFile_throwIf _ mismatch).bind fun _ => ?_
  refine (ofFile_throwIf _ (by decide)).bind fun _ => ?_
  refine (ofFile_throwIf _ mismatch).bind fun _ => ?_
  refine checkAudioCodecs_ofFile.bind fun _ => checkVideoCodecs_ofFile.bind fun _ => ?_
  refine mediaDuration_ofFile.bind fun durationSeconds => ?_
  refine (ofFile_throwIf _ (by decide)).bind fun _ => ?_
  refine maximumFrom_ofFile.bind fun width => maximumFrom_ofFile.bind fun height => ?_
  exact (ofFile_throwIf _ (by decide)).bind fun _ => ofFile_ok _

theorem safetyLimit_ofFile {field : String} {actual : Value} {maximum : Nat} :
    (safetyLimit field actual maximum).OfFile :=
  (by decide : "FILE_SIZE_EXCEEDED" ∈ fileCodes)

theorem assertSide_ofFile {field : String} {side : Value} {maximum : Nat} :
    OfFile (assertSide engine field side maximum) := by
  unfold assertSide
  split
  · exact ofFile_ok ()
  · exact (ofFile_ofOption _).bind fun _ => ofFile_throwIf _ safetyLimit_ofFile

theorem assertSafety_ofFile {inspection : AvInspection} {mediaType : MediaType} :
    OfFile (assertSafety engine configuration inspection mediaType) := by
  refine (ofFile_throwIf _ safetyLimit_ofFile).bind fun _ => ?_
  refine (ofFile_throwIf _ safetyLimit_ofFile).bind fun _ => ?_
  split
  · exact assertSide_ofFile.bind fun _ => assertSide_ofFile
  · exact ofFile_ok ()

theorem inspectAv_ofFile {probe : ProbeResult} {header : Option Bytes} {mediaType : MediaType}
    {expectedFormat : String} {enforce : Bool} :
    OfFile (inspectAv engine configuration probe header mediaType expectedFormat enforce) := by
  have read : OfFile (documentOf probe) := by
    cases probe with
    | document document => exact ofFile_ok document
    | timeout => exact ofFile_reject (by decide)
    | corrupted => exact ofFile_reject (by decide)
  refine read.bind fun document => ?_
  refine (ofFile_ofExcept fun _ => detect_ofFile).bind fun signature => ?_
  refine validateDocument_ofFile.bind fun inspection => ?_
  split
  · exact assertSafety_ofFile.bind fun _ => ofFile_ok inspection
  · exact (ofFile_ok ()).bind fun _ => ofFile_ok inspection

end Inspectors

section File

variable {engine : Engine} {configuration : UploadConfiguration} {file : UploadedFile}
variable {fileIndex sizeBytes : Nat}

theorem signatureMismatch_ofFile {policy : Property ExtensionPolicy} {declared : Property String}
    {detected : String} : (signatureMismatch policy declared detected).OfFile :=
  (by decide : "FILE_SIGNATURE_MISMATCH" ∈ fileCodes)

theorem fileSizeExceeded_ofFile {maximum : Nat} : (fileSizeExceeded maximum).OfFile :=
  (by decide : "FILE_SIZE_EXCEEDED" ∈ fileCodes)

theorem agreedPolicy_ofFile {policy : Property ExtensionPolicy} {declared : Property String}
    {signature : SignatureDetection} : OfFile (agreedPolicy policy declared signature) := by
  cases policy with
  | own row =>
      rw [agreedPolicy]
      split
      · exact ofFile_ok row
      · exact ofFile_reject signatureMismatch_ofFile
  | inherited name => exact ofFile_reject signatureMismatch_ofFile

theorem inspect_ofFile {policy : ExtensionPolicy} :
    OfFile (inspect engine configuration file policy) := by
  unfold inspect
  split
  · exact (ofFile_ofExcept fun _ => inspectImage_ofFile).map _
  · exact inspectAv_ofFile.map _

/-- The checks of one file throw only errors about a file. -/
theorem checkFile_ofFile : OfFile (checkFile engine configuration file fileIndex sizeBytes) := by
  unfold checkFile
  refine (ofFile_throwIf _ (by decide)).bind fun _ => ?_
  refine (ofFile_ofExcept fun _ => normalizeOriginalFilename_ofFile).bind fun name => ?_
  refine (ofFile_ofExcept fun _ => resolveExtensionPolicy_ofFile).bind fun extension => ?_
  refine (ofFile_ofExcept fun _ => canonicalizeDeclaredMimeType_ofFile).bind fun declared => ?_
  refine (ofFile_ofExcept fun _ => detect_ofFile).bind fun signature => ?_
  refine agreedPolicy_ofFile.bind fun policy => inspect_ofFile.bind fun inspection => ?_
  refine (ofFile_throwIf _ signatureMismatch_ofFile).bind fun _ => ?_
  refine (ofFile_throwIf _ fileSizeExceeded_ofFile).bind fun _ => ?_
  have safety : OfFile (assertInspectionSafety engine configuration policy.mediaType
      inspection) := by
    cases inspection with
    | image inspection => exact ofFile_ok ()
    | av inspection => exact assertSafety_ofFile
  refine safety.bind fun _ => (ofFile_ofExcept fun error thrown => ?_).bind fun _ => ofFile_ok _
  split at thrown <;> cases thrown
  decide

/-- The code of a rejection by `validateFile` is that of a single file. -/
theorem validateFile_code {error : FileValidationError}
    (rejected : validateFile engine configuration file fileIndex sizeBytes = .error error) :
    error.code ∈ fileCodes := by
  unfold validateFile at rejected
  split at rejected
  · cases rejected
  · rename_i thrown
    cases rejected
    exact checkFile_ofFile _ thrown
  · cases rejected
    exact (by decide : "CORRUPTED_FILE" ∈ fileCodes)

end File

end PostsMedia.Validation
