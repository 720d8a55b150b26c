import PostsMedia.Validation.Signature

namespace PostsMedia.Validation

/-- The configuration accepts only positive safe integers. -/
abbrev Limit := { n : Nat // 0 < n ∧ n < 2 ^ 53 }

/-- The limits of `EnvironmentConfiguration['upload']` that the validation reads. -/
structure UploadConfiguration where
  maxFilesPerRequest : Limit
  maxTotalUploadSizeMb : Limit
  maxImageSizeMb : Limit
  maxAudioSizeMb : Limit
  maxVideoSizeMb : Limit
  maxImagePixels : Limit
  maxMediaStreams : Limit
  maxAudioDurationSeconds : Limit
  maxVideoDurationSeconds : Limit
  maxVideoWidth : Limit
  maxVideoHeight : Limit

/-- What an inspection throws. An error of the language itself carries no code. -/
inductive Thrown
  | domain (error : ValidationError)
  | native

abbrev Attempt := Except Thrown

namespace Attempt

def reject {α : Type} (error : ValidationError) : Attempt α := .error (.domain error)

/-- A read of a property of nothing, or a call of what is no function. -/
def native {α : Type} : Attempt α := .error .native

/-- The statement throws this error when its condition holds. -/
def throwIf (condition : Bool) (error : ValidationError) : Attempt Unit :=
  if condition then reject error else .ok ()

def ofOption {α : Type} : Option α → Attempt α
  | some value => .ok value
  | none => native

def ofExcept {α : Type} : Except ValidationError α → Attempt α
  | .ok value => .ok value
  | .error error => reject error

end Attempt

section Image

/-- What `metadata` of the image library tells. -/
structure SharpMetadata where
  format : Option String
  width : Option Int
  height : Option Int
  pageHeight : Option Int
  pages : Option Int

structure ImageInspection where
  format : String
  mimeType : String
  width : Int
  height : Int
  pages : Int

def mimeByFormat : List (String × String) :=
  [("jpeg", "image/jpeg"), ("png", "image/png"), ("webp", "image/webp")]

def corruptedImage : ValidationError where
  code := "CORRUPTED_FILE"
  message := "The uploaded image could not be decoded."
  httpStatus := 422

def animatedImageNotSupported (pages : Int) : ValidationError where
  code := "ANIMATED_IMAGE_NOT_SUPPORTED"
  message := "Animated or multi-frame images are not supported."
  httpStatus := 422
  details := some [("pages", .own (.num (.finite pages)))]

def imagePixelLimitExceeded (inspection : ImageInspection) (maxPixels : Nat) :
    ValidationError where
  code := "IMAGE_PIXEL_LIMIT_EXCEEDED"
  message := "The decoded image exceeds the pixel limit."
  httpStatus := 422
  details := some
    [("width", .own (.num (.finite inspection.width))),
      ("height", .own (.num (.finite inspection.height))),
      ("maxPixels", natDetail maxPixels)]

/-- The product of the sides is a double. -/
def assertImageSafety (maxPixels : Nat) (inspection : ImageInspection) :
    Except ValidationError Unit :=
  if inspection.pages > 1 then .error (animatedImageNotSupported inspection.pages)
  else if Doubles.toDouble (inspection.width * inspection.height) > maxPixels then
    .error (imagePixelLimitExceeded inspection maxPixels)
  else .ok ()

/-- The inspection of an image. Any other error of the image library means a corrupted file. -/
def inspectImage (maxPixels : Nat) (metadata : Option SharpMetadata) (decodes : Bool) :
    Except ValidationError ImageInspection :=
  match metadata with
  | none => .error corruptedImage
  | some metadata =>
      let mimeType := metadata.format.bind (mimeByFormat.lookup ·)
      match metadata.format, mimeType, metadata.width,
          metadata.pageHeight.or metadata.height with
      | some format, some mimeType, some width, some pageHeight =>
          if width < 1 ∨ pageHeight < 1 then .error corruptedImage
          else
            let inspection : ImageInspection :=
              ⟨format, mimeType, width, pageHeight, metadata.pages.getD 1⟩
            (assertImageSafety maxPixels inspection).bind fun _ =>
              if decodes then .ok inspection else .error corruptedImage
      | _, _, _, _ => .error corruptedImage

end Image

/-- What the probe process leaves. Every failure but the timeout reports a corrupted file. -/
inductive ProbeResult
  | document (document : Value)
  | timeout
  | corrupted

structure AvInspection where
  format : String
  mimeType : String
  durationSeconds : Number
  streamCount : Nat
  audioCodec : Value
  videoCodec : Value
  width : Value
  height : Value

def supportedAudioCodecs : List String := ["aac", "flac", "mp3", "opus", "vorbis"]

def supportedVideoCodecs : List String := ["av1", "h264", "hevc", "vp8", "vp9"]

section Errors

def corruptedMedia : ValidationError where
  code := "CORRUPTED_FILE"
  message := "The uploaded media could not be inspected."
  httpStatus := 422

def mediaValidationTimeout : ValidationError where
  code := "MEDIA_VALIDATION_TIMEOUT"
  message := "Media validation exceeded the configured time limit."
  httpStatus := 422

def mediaStreamNotFound : ValidationError where
  code := "MEDIA_STREAM_NOT_FOUND"
  message := "The uploaded media does not contain the required media stream."
  httpStatus := 422

def unsupportedAudioCodec (codec : Value) : ValidationError where
  code := "UNSUPPORTED_AUDIO_CODEC"
  message := "The uploaded audio codec is not supported."
  httpStatus := 422
  details := some [("codec", .own codec)]

def unsupportedVideoCodec (codec : Value) : ValidationError where
  code := "UNSUPPORTED_VIDEO_CODEC"
  message := "The uploaded video codec is not supported."
  httpStatus := 422
  details := some [("codec", .own codec)]

def safetyLimit (field : String) (actual : Value) (maximum : Nat) : ValidationError where
  code := "FILE_SIZE_EXCEEDED"
  message := "The uploaded media exceeds a configured safety limit."
  httpStatus := 422
  details := some
    [("field", detail field), ("actual", .own actual), ("maximum", natDetail maximum)]

def mimeTypes : List (String × String) :=
  [("mp3", "audio/mpeg"), ("wav", "audio/wav"), ("m4a", "audio/mp4"), ("aac", "audio/aac"),
    ("flac", "audio/flac"), ("ogg", "audio/ogg"), ("mp4", "video/mp4"),
    ("mov", "video/quicktime"), ("webm", "video/webm"), ("mkv", "video/x-matroska")]

def mimeForFormat (format : String) : String :=
  (mimeTypes.lookup format).getD "application/octet-stream"

def fileSignatureMismatch (detectedFormat : Option String) : ValidationError where
  code := "FILE_SIGNATURE_MISMATCH"
  message := "The uploaded content does not match the submitted media format."
  httpStatus := 422
  details := detectedFormat.map fun format =>
    [("detectedFormat", detail format), ("detectedMimeType", detail (mimeForFormat format))]

end Errors

section Document

def isoNames : List String := ["mov", "mp4", "m4a", "3gp", "3g2", "mj2"]

def matroskaNames : List String := ["matroska", "webm"]

def containerNames : List (String × List String) :=
  [("mp3", ["mp3"]), ("wav", ["wav"]), ("m4a", isoNames), ("aac", ["aac"]), ("flac", ["flac"]),
    ("ogg", ["ogg"]), ("mp4", isoNames), ("mov", isoNames), ("webm", matroskaNames),
    ("mkv", matroskaNames)]

def containerMatches (expectedFormat : String) (actual : List Text) : Bool :=
  ((containerNames.lookup expectedFormat).getD []).any fun name =>
    actual.contains (Text.ofString name)

def deriveFormat (signature : SignatureDetection) (audioStreams videoStreams : List Value) :
    Option String :=
  match signature.containerFamily with
  | some .isoBmff =>
      if signature.containerVariant = some .mov ∨ signature.containerVariant = some .m4a then
        signature.containerVariant.map (·.format)
      else if !signature.sharedIso then none
      else if videoStreams.length > 0 then some "mp4"
      else if audioStreams.length > 0 then some "m4a" else none
  | some .ebml => signature.containerVariant.map (·.format)
  | none => some signature.format

def audioFormats : List String := ["m4a", "mp3", "wav", "aac", "flac", "ogg"]

def videoFormats : List String := ["mp4", "mov", "webm", "mkv"]

def streamContractMatches (format : String) (audioStreams videoStreams : List Value) : Bool :=
  if audioFormats.contains format then audioStreams.length > 0 && videoStreams.length = 0
  else videoStreams.length > 0

def mediaTypeForFormat (format : String) : Option MediaType :=
  if audioFormats.contains format then some .audio
  else if videoFormats.contains format then some .video
  else none

/-- The streams of a document. Only an array can be filtered. -/
def streamsOf (document : Value) : Attempt (List Value) := do
  let streams ← Attempt.ofOption (document.get "streams")
  match streams.orElse (.arr []) with
  | .arr items => return items
  | _ => Attempt.native

def streamsOfType (kind : String) : List Value → Attempt (List Value)
  | [] => return []
  | stream :: rest => do
      let codecType ← Attempt.ofOption (stream.get "codec_type")
      let others ← streamsOfType kind rest
      return if codecType.isText kind then stream :: others else others

/-- The names of the container formats. Only a text can be split. -/
def formatNamesOf (document : Value) : Attempt (List Text) := do
  let format ← Attempt.ofOption (document.get "format")
  match (format.chain "format_name").orElse (.str []) with
  | .str names => return (names.splitOn 0x2C).filter (· ≠ [])
  | _ => Attempt.native

def checkAudioCodecs : List Value → Attempt Unit
  | [] => return ()
  | stream :: rest =>
      match stream.chain "codec_name" with
      | .undefined => Attempt.reject corruptedMedia
      | .str codec =>
          if !(Text.ofString "pcm_").isPrefixOf codec &&
              !supportedAudioCodecs.any (Value.str codec).isText then
            Attempt.reject (unsupportedAudioCodec (.str codec))
          else checkAudioCodecs rest
      | _ => Attempt.native

def checkVideoCodecs : List Value → Attempt Unit
  | [] => return ()
  | stream :: rest =>
      match stream.chain "codec_name" with
      | .undefined => Attempt.reject corruptedMedia
      | codec =>
          if !supportedVideoCodecs.any codec.isText then
            Attempt.reject (unsupportedVideoCodec codec)
          else checkVideoCodecs rest

def firstCodec : List Value → Value
  | [] => .undefined
  | stream :: _ => stream.chain "codec_name"

def validDimension : Value → Bool
  | .num value => value.isInteger && Number.lt (.finite 0) value
  | _ => false

variable (engine : Engine)

/-- The greatest duration of the streams. -/
def streamsDuration : Number → List Value → Attempt Number
  | maximum, [] => return maximum
  | maximum, stream :: rest => do
      let duration ← Attempt.ofOption ((stream.chain "duration").toNumber engine)
      streamsDuration (maximum.mathMax duration) rest

/-- The duration of the container, or else that of its streams. -/
def mediaDuration (document : Value) (streams : List Value) : Attempt Number := do
  let format ← Attempt.ofOption (document.get "format")
  let formatDuration ← Attempt.ofOption ((format.chain "duration").toNumber engine)
  if formatDuration.isFinite then return formatDuration
  else streamsDuration engine (.infinity true) streams

/-- The greatest of the values that are not undefined, from the greatest so far on. -/
def maximumFrom : Value → List Value → Attempt Value
  | maximum, [] => return maximum
  | maximum, .undefined :: rest => maximumFrom maximum rest
  | .undefined, value :: rest => maximumFrom value rest
  | maximum, value :: rest => do
      let greater ← Attempt.ofOption (value.gt engine maximum)
      maximumFrom (if greater then value else maximum) rest

def maximumDefined (values : List Value) : Attempt Value := maximumFrom engine .undefined values

def formatOf (signature : SignatureDetection) (audioStreams videoStreams : List Value) :
    Attempt String :=
  match deriveFormat signature audioStreams videoStreams with
  | some actualFormat => return actualFormat
  | none => Attempt.reject (fileSignatureMismatch none)

/-- The checks of a probe document, in the order of the source. -/
def validateDocument (document : Value) (mediaType : MediaType) (expectedFormat : String)
    (signature : SignatureDetection) : Attempt AvInspection := do
  let streams ← streamsOf document
  let audioStreams ← streamsOfType "audio" streams
  let videoStreams ← streamsOfType "video" streams
  let formatNames ← formatNamesOf document
  let actualFormat ← formatOf signature audioStreams videoStreams
  Attempt.throwIf (actualFormat ≠ expectedFormat || !containerMatches actualFormat formatNames)
    (fileSignatureMismatch (some actualFormat))
  Attempt.throwIf (mediaTypeForFormat actualFormat ≠ some mediaType)
    (fileSignatureMismatch (some actualFormat))
  let requiredStreams := if mediaType = .audio then audioStreams else videoStreams
  Attempt.throwIf (requiredStreams.length = 0) mediaStreamNotFound
  Attempt.throwIf (!streamContractMatches actualFormat audioStreams videoStreams)
    (fileSignatureMismatch (some actualFormat))
  checkAudioCodecs audioStreams
  checkVideoCodecs videoStreams
  let durationSeconds ← mediaDuration engine document requiredStreams
  Attempt.throwIf (!durationSeconds.isFinite || !Number.lt (.finite 0) durationSeconds)
    corruptedMedia
  let width ← maximumDefined engine (videoStreams.map (·.chain "width"))
  let height ← maximumDefined engine (videoStreams.map (·.chain "height"))
  Attempt.throwIf (mediaType = .video && videoStreams.any fun stream =>
    !validDimension (stream.chain "width") || !validDimension (stream.chain "height"))
    corruptedMedia
  return {
    format := actualFormat
    mimeType := mimeForFormat actualFormat
    durationSeconds := durationSeconds
    streamCount := streams.length
    audioCodec := firstCodec audioStreams
    videoCodec := firstCodec videoStreams
    width := width
    height := height }

end Document

section Safety

variable (engine : Engine) (configuration : UploadConfiguration)

/-- One side of a video. An undefined side is not compared. -/
def assertSide (field : String) (side : Value) (maximum : Nat) : Attempt Unit :=
  match side with
  | .undefined => return ()
  | side => do
      let exceeds ← Attempt.ofOption (side.gt engine (.num (.finite maximum)))
      Attempt.throwIf exceeds (safetyLimit field side maximum)

def maximumDuration (mediaType : MediaType) : Nat :=
  if mediaType = .audio then configuration.maxAudioDurationSeconds
  else configuration.maxVideoDurationSeconds

def assertSafety (inspection : AvInspection) (mediaType : MediaType) : Attempt Unit := do
  Attempt.throwIf (inspection.streamCount > configuration.maxMediaStreams)
    (safetyLimit "streamCount" (.num (.finite inspection.streamCount))
      configuration.maxMediaStreams)
  let maximum := maximumDuration configuration mediaType
  Attempt.throwIf (Number.lt (.finite maximum) inspection.durationSeconds)
    (safetyLimit "durationSeconds" (.num inspection.durationSeconds) maximum)
  if mediaType = .video then do
    assertSide engine "width" inspection.width configuration.maxVideoWidth
    assertSide engine "height" inspection.height configuration.maxVideoHeight
  else return ()

def documentOf (probe : ProbeResult) : Attempt Value :=
  match probe with
  | .document document => return document
  | .timeout => Attempt.reject mediaValidationTimeout
  | .corrupted => Attempt.reject corruptedMedia

/-- The inspection of an audio or video file. It reads the header again. -/
def inspectAv (probe : ProbeResult) (header : Option Bytes) (mediaType : MediaType)
    (expectedFormat : String) (enforceSafetyLimits : Bool) : Attempt AvInspection := do
  let document ← documentOf probe
  let signature ← Attempt.ofExcept (detect header)
  let inspection ← validateDocument engine document mediaType expectedFormat signature
  if enforceSafetyLimits then assertSafety engine configuration inspection mediaType else pure ()
  return inspection

end Safety

end PostsMedia.Validation
