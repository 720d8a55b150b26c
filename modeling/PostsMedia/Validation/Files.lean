import Mathlib.Logic.Function.Basic
import PostsMedia.Validation.Inspection

namespace PostsMedia.Validation

/-- One uploaded file with what the calls on its path return, in their order. A read that fails
returns nothing. -/
structure UploadedFile where
  path : String
  originalname : Text
  mimetype : Text
  size : Option Nat
  header : Option Bytes
  metadata : Option SharpMetadata
  decodes : Bool
  probe : ProbeResult
  headerAgain : Option Bytes
  checksum : Option String

structure ValidatedUpload where
  fileIndex : Nat
  temporaryPath : String
  originalFilename : Text
  extension : String
  declaredMimeType : Property String
  detectedMimeType : String
  detectedFormat : String
  mediaType : MediaType
  sizeBytes : Nat
  checksumSha256 : String
  preliminaryMetadata : List (String × Value)

structure FileValidationError where
  fileIndex : Nat
  originalFilename : Text
  code : String
  message : String
  details : Option (List (String × Property Value)) := none

abbrev FileValidationOutcome := Except FileValidationError ValidatedUpload

namespace FileValidationOutcome

def fileIndex : FileValidationOutcome → Nat
  | .ok upload => upload.fileIndex
  | .error error => error.fileIndex

def upload : FileValidationOutcome → Option ValidatedUpload
  | .ok upload => some upload
  | .error _ => none

def failure : FileValidationOutcome → Option FileValidationError
  | .ok _ => none
  | .error error => some error

/-- The file is rejected with this code. -/
def RejectedWith (outcome : FileValidationOutcome) (code : String) : Prop :=
  ∃ error, outcome = .error error ∧ error.code = code

@[simp] theorem upload_ok (value : ValidatedUpload) : upload (.ok value) = some value := rfl

@[simp] theorem upload_error (error : FileValidationError) : upload (.error error) = none := rfl

@[simp] theorem failure_ok (value : ValidatedUpload) : failure (.ok value) = none := rfl

@[simp] theorem failure_error (error : FileValidationError) :
    failure (.error error) = some error := rfl

end FileValidationOutcome

structure MediaValidationResult where
  outcomes : List FileValidationOutcome
  validatedUploads : List ValidatedUpload
  errors : List FileValidationError

def mebibyte : Nat := 1024 * 1024

section Errors

def fileSizeExceeded (maximumBytes : Nat) : ValidationError where
  code := "FILE_SIZE_EXCEEDED"
  message := "The uploaded file exceeds the size limit for its media type."
  httpStatus := 422
  details := some [("maximumBytes", detail (toString maximumBytes))]

def fileCountExceeded (maximum : Nat) : ValidationError where
  code := "FILE_COUNT_EXCEEDED"
  message := "The request contains too many uploaded files."
  httpStatus := 400
  details := some [("maximum", natDetail maximum)]

def totalUploadSizeExceeded (maximum : Nat) : ValidationError where
  code := "TOTAL_UPLOAD_SIZE_EXCEEDED"
  message := "The request exceeds the total upload size limit."
  httpStatus := 413
  details := some [("maximumBytes", detail (toString maximum))]

def checksumCalculationFailed : ValidationError where
  code := "CHECKSUM_CALCULATION_FAILED"
  message := "The uploaded file checksum could not be calculated."
  httpStatus := 422

/-- The extension of an inherited property is undefined. -/
def signatureMismatch (policy : Property ExtensionPolicy) (declaredMimeType : Property String)
    (detectedMimeType : String) : ValidationError where
  code := "FILE_SIGNATURE_MISMATCH"
  message := "The uploaded content does not match the submitted media format."
  httpStatus := 422
  details := some
    [("extension", match policy with
        | .own row => detail row.extension
        | .inherited _ => .own .undefined),
      ("declaredMimeType", match declaredMimeType with
        | .own mimeType => detail mimeType
        | .inherited name => .inherited name),
      ("detectedMimeType", detail detectedMimeType)]

def safeFilename (originalFilename : Text) : Text :=
  match normalizeOriginalFilename originalFilename with
  | .ok normalized => normalized
  | .error _ => Text.ofString "unnamed"

def toFileError (fileIndex : Nat) (originalFilename : Text) (error : ValidationError) :
    FileValidationError where
  fileIndex := fileIndex
  originalFilename := safeFilename originalFilename
  code := error.code
  message := error.message
  details := error.details

end Errors

def signatureMatchesPolicy (signature : SignatureDetection) (policy : ExtensionPolicy) : Bool :=
  match signature.containerFamily with
  | some .isoBmff =>
      ["m4a", "mp4", "mov"].contains policy.format &&
        (signature.containerVariant.isNone ||
          signature.containerVariant.map (·.format) = some policy.format)
  | some .ebml =>
      ["webm", "mkv"].contains policy.format &&
        signature.containerVariant.map (·.format) = some policy.format
  | none => signature.format = policy.format && signature.mediaType = some policy.mediaType

/-- The row that the extension, the signature and the declared type agree on. What the table
inherits agrees with no signature. -/
def agreedPolicy (policy : Property ExtensionPolicy) (declaredMimeType : Property String)
    (signature : SignatureDetection) : Attempt ExtensionPolicy :=
  match policy with
  | .own row =>
      if signatureMatchesPolicy signature row && isDeclaredMimeCompatible row declaredMimeType then
        return row
      else Attempt.reject (signatureMismatch policy declaredMimeType signature.mimeType)
  | .inherited _ => Attempt.reject (signatureMismatch policy declaredMimeType signature.mimeType)

/-- What the inspector of a media type finds. -/
inductive Inspection
  | image (inspection : ImageInspection)
  | av (inspection : AvInspection)

namespace Inspection

def format : Inspection → String
  | .image inspection => inspection.format
  | .av inspection => inspection.format

def mimeType : Inspection → String
  | .image inspection => inspection.mimeType
  | .av inspection => inspection.mimeType

/-- A field that is left out when its value is undefined. -/
def optionalField (name : String) : Value → List (String × Value)
  | .undefined => []
  | value => [(name, value)]

def preliminaryMetadata : Inspection → List (String × Value)
  | .image inspection =>
      [("width", .num (.finite inspection.width)), ("height", .num (.finite inspection.height)),
        ("pages", .num (.finite inspection.pages))]
  | .av inspection =>
      [("durationSeconds", .num inspection.durationSeconds),
        ("streamCount", .num (.finite inspection.streamCount))] ++
        optionalField "audioCodec" inspection.audioCodec ++
        optionalField "videoCodec" inspection.videoCodec ++
        optionalField "width" inspection.width ++ optionalField "height" inspection.height

end Inspection

section Service

variable (engine : Engine) (configuration : UploadConfiguration)

def maximumBytes (mediaType : MediaType) : Nat :=
  let megabytes : Limit := match mediaType with
    | .image => configuration.maxImageSizeMb
    | .audio => configuration.maxAudioSizeMb
    | .video => configuration.maxVideoSizeMb
  megabytes * mebibyte

/-- The safety limits of audio and video are not enforced here. -/
def inspect (file : UploadedFile) (policy : ExtensionPolicy) : Attempt Inspection :=
  match policy.mediaType with
  | .image => (Attempt.ofExcept
      (inspectImage configuration.maxImagePixels file.metadata file.decodes)).map .image
  | mediaType => (inspectAv engine configuration file.probe file.headerAgain mediaType
      policy.format false).map .av

/-- The deferred check of the safety limits. -/
def assertInspectionSafety (mediaType : MediaType) : Inspection → Attempt Unit
  | .image _ => return ()
  | .av inspection => assertSafety engine configuration inspection mediaType

/-- The body of `validateFile` without its `catch`. -/
def checkFile (file : UploadedFile) (fileIndex sizeBytes : Nat) : Attempt ValidatedUpload := do
  Attempt.throwIf (sizeBytes = 0) emptyFile
  let originalFilename ← Attempt.ofExcept (normalizeOriginalFilename file.originalname)
  let extensionPolicy ← Attempt.ofExcept (resolveExtensionPolicy engine originalFilename)
  let declaredMimeType ← Attempt.ofExcept (canonicalizeDeclaredMimeType engine file.mimetype)
  let signature ← Attempt.ofExcept (detect file.header)
  let policy ← agreedPolicy extensionPolicy declaredMimeType signature
  let inspection ← inspect engine configuration file policy
  Attempt.throwIf
    (inspection.format ≠ policy.format || inspection.mimeType ≠ policy.detectedMimeType)
    (signatureMismatch (.own policy) declaredMimeType inspection.mimeType)
  Attempt.throwIf (sizeBytes > maximumBytes configuration policy.mediaType)
    (fileSizeExceeded (maximumBytes configuration policy.mediaType))
  assertInspectionSafety engine configuration policy.mediaType inspection
  let checksumSha256 ← Attempt.ofExcept (match file.checksum with
    | some checksum => .ok checksum
    | none => .error checksumCalculationFailed)
  return {
    fileIndex := fileIndex
    temporaryPath := file.path
    originalFilename := originalFilename
    extension := policy.extension
    declaredMimeType := declaredMimeType
    detectedMimeType := inspection.mimeType
    detectedFormat := inspection.format
    mediaType := policy.mediaType
    sizeBytes := sizeBytes
    checksumSha256 := checksumSha256
    preliminaryMetadata := inspection.preliminaryMetadata }

def validateFile (file : UploadedFile) (fileIndex sizeBytes : Nat) : FileValidationOutcome :=
  match checkFile engine configuration file fileIndex sizeBytes with
  | .ok upload => .ok upload
  | .error (.domain error) => .error (toFileError fileIndex file.originalname error)
  | .error .native => .error (toFileError fileIndex file.originalname corruptedFile)

/-- The two maps that `preflight` fills. -/
structure Preflight where
  sizes : Nat → Option Nat
  errors : Nat → Option FileValidationError

namespace Preflight

def empty : Preflight := ⟨fun _ => none, fun _ => none⟩

def setSize (preflight : Preflight) (fileIndex size : Nat) : Preflight :=
  { preflight with sizes := Function.update preflight.sizes fileIndex (some size) }

def setError (preflight : Preflight) (fileIndex : Nat) (file : UploadedFile)
    (error : ValidationError) : Preflight :=
  { preflight with
    errors := Function.update preflight.errors fileIndex
      (some (toFileError fileIndex file.originalname error)) }

end Preflight

def eligible (files : List UploadedFile) : List UploadedFile :=
  files.take configuration.maxFilesPerRequest

/-- The loop over the surplus files. -/
def rejectSurplus : Nat → List UploadedFile → Preflight → Preflight
  | _, [], preflight => preflight
  | fileIndex, file :: rest, preflight =>
      rejectSurplus (fileIndex + 1) rest (preflight.setError fileIndex file
        (fileCountExceeded configuration.maxFilesPerRequest))

/-- The end of one of the concurrent `stat` calls. -/
def recordStat (files : List UploadedFile) (preflight : Preflight) (fileIndex : Nat) :
    Preflight :=
  match files[fileIndex]? with
  | none => preflight
  | some file =>
      match file.size with
      | some size => preflight.setSize fileIndex size
      | none => preflight.setError fileIndex file corruptedFile

def maximumTotal : Nat := configuration.maxTotalUploadSizeMb * mebibyte

/-- The loop that sums the sizes. -/
def rejectTotal : Nat → List UploadedFile → Nat → Preflight → Preflight
  | _, [], _, preflight => preflight
  | fileIndex, file :: rest, aggregate, preflight =>
      match preflight.sizes fileIndex, preflight.errors fileIndex with
      | some size, none =>
          rejectTotal (fileIndex + 1) rest (aggregate + size)
            (if aggregate + size > maximumTotal configuration then
              preflight.setError fileIndex file
                (totalUploadSizeExceeded (maximumTotal configuration))
            else preflight)
      | _, _ => rejectTotal (fileIndex + 1) rest aggregate preflight

/-- The maps after the `stat` calls, which end in the given order. -/
def recordStats (order : List Nat) (files : List UploadedFile) : Preflight :=
  let count := (eligible configuration files).length
  order.foldl (recordStat (eligible configuration files))
    (rejectSurplus configuration count (files.drop count) .empty)

def preflight (order : List Nat) (files : List UploadedFile) : Preflight :=
  rejectTotal configuration 0 (eligible configuration files) 0
    (recordStats configuration order files)

/-- The body of the loop over the files. -/
def outcomeOf (preflight : Preflight) (fileIndex : Nat) (file : UploadedFile) :
    FileValidationOutcome :=
  match preflight.errors fileIndex, preflight.sizes fileIndex with
  | some failure, _ => .error failure
  | none, none => .error (toFileError fileIndex file.originalname corruptedFile)
  | none, some size => validateFile engine configuration file fileIndex size

/-- The outcomes of the files from one index on. -/
def outcomesFrom (preflight : Preflight) : Nat → List UploadedFile → List FileValidationOutcome
  | _, [] => []
  | fileIndex, file :: rest =>
      outcomeOf engine configuration preflight fileIndex file ::
        outcomesFrom preflight (fileIndex + 1) rest

def validateFiles (order : List Nat) (files : List UploadedFile) : MediaValidationResult :=
  let outcomes := outcomesFrom engine configuration (preflight configuration order files) 0 files
  { outcomes := outcomes
    validatedUploads := outcomes.flatMap fun outcome => match outcome with
      | .ok upload => [upload]
      | .error _ => []
    errors := outcomes.flatMap fun outcome => match outcome with
      | .ok _ => []
      | .error error => [error] }

end Service

/-- An engine that knows the letters of ASCII and prints integers. -/
def sampleEngine : Engine where
  toLowerCase text := text.map Text.lowerUnit
  numberToString number := match number with
    | .finite value => Text.ofString (toString value.num)
    | .infinity negative => Text.ofString (if negative then "-Infinity" else "Infinity")
    | .nan => Text.ofString "NaN"
  toLowerCase_ascii _ _ := rfl

def sampleConfiguration : UploadConfiguration where
  maxFilesPerRequest := ⟨2, by decide⟩
  maxTotalUploadSizeMb := ⟨100, by decide⟩
  maxImageSizeMb := ⟨10, by decide⟩
  maxAudioSizeMb := ⟨50, by decide⟩
  maxVideoSizeMb := ⟨100, by decide⟩
  maxImagePixels := ⟨1000000, by decide⟩
  maxMediaStreams := ⟨4, by decide⟩
  maxAudioDurationSeconds := ⟨600, by decide⟩
  maxVideoDurationSeconds := ⟨600, by decide⟩
  maxVideoWidth := ⟨1920, by decide⟩
  maxVideoHeight := ⟨1080, by decide⟩

/-- A small image with a path before its name and an alias of its type. -/
def samplePhoto : UploadedFile where
  path := "/tmp/upload-0"
  originalname := Text.ofString "holiday/Photo.JPG"
  mimetype := Text.ofString "image/jpg"
  size := some 3
  header := some [0xFF, 0xD8, 0xFF]
  metadata := some ⟨some "jpeg", some 2, some 1, none, none⟩
  decodes := true
  probe := .corrupted
  headerAgain := some [0xFF, 0xD8, 0xFF]
  checksum := some "c0"

end PostsMedia.Validation
