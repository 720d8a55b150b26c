import Mathlib.Data.List.Chain
import PostsMedia.Domain.Basic
import PostsMedia.Domain.Value

namespace PostsMedia.Validation

/-- The `DomainError` of a rejected file. Its details may hold what a table lookup inherits. -/
structure ValidationError where
  code : String
  message : String
  httpStatus : Nat
  details : Option (List (String × Property Value)) := none

/-- A text of the code as a detail. -/
def detail (text : String) : Property Value := .own (.str (Text.ofString text))

def natDetail (n : Nat) : Property Value := .own (.num (.finite n))

section Filename

def isSeparator (unit : CodeUnit) : Bool := unit = 0x2F || unit = 0x5C

def isControl (unit : CodeUnit) : Bool := unit < 0x20 || unit = 0x7F

/-- The replacement of `\s+` by one space. The flag tells that a run of white space goes on. -/
def collapse : Bool → Text → Text
  | _, [] => []
  | inside, unit :: rest =>
      if Text.isWhiteSpace unit then
        if inside then collapse true rest else 0x20 :: collapse true rest
      else unit :: collapse false rest

def invalidOriginalFilename : ValidationError where
  code := "INVALID_ORIGINAL_FILENAME"
  message := "The uploaded file name is invalid."
  httpStatus := 422

def normalizeOriginalFilename (originalFilename : Text) : Except ValidationError Text :=
  let basename := originalFilename.rtakeWhile fun unit => !isSeparator unit
  let withoutControls := basename.map fun unit => if isControl unit then 0x20 else unit
  let normalized := (collapse false withoutControls).trim
  if normalized.length = 0 ∨ normalized.length > 255 then .error invalidOriginalFilename
  else .ok normalized

end Filename

section Extension

structure ExtensionPolicy where
  extension : String
  format : String
  mediaType : MediaType
  detectedMimeType : String
  deriving DecidableEq

def image (extension format mimeType : String) : ExtensionPolicy :=
  ⟨extension, format, .image, mimeType⟩

def audio (extension format mimeType : String) : ExtensionPolicy :=
  ⟨extension, format, .audio, mimeType⟩

def video (extension format mimeType : String) : ExtensionPolicy :=
  ⟨extension, format, .video, mimeType⟩

def policies : List (String × ExtensionPolicy) :=
  [("jpg", image "jpg" "jpeg" "image/jpeg"),
    ("jpeg", image "jpeg" "jpeg" "image/jpeg"),
    ("png", image "png" "png" "image/png"),
    ("webp", image "webp" "webp" "image/webp"),
    ("mp3", audio "mp3" "mp3" "audio/mpeg"),
    ("wav", audio "wav" "wav" "audio/wav"),
    ("m4a", audio "m4a" "m4a" "audio/mp4"),
    ("aac", audio "aac" "aac" "audio/aac"),
    ("flac", audio "flac" "flac" "audio/flac"),
    ("ogg", audio "ogg" "ogg" "audio/ogg"),
    ("oga", audio "oga" "ogg" "audio/ogg"),
    ("mp4", video "mp4" "mp4" "video/mp4"),
    ("mov", video "mov" "mov" "video/quicktime"),
    ("webm", video "webm" "webm" "video/webm"),
    ("mkv", video "mkv" "mkv" "video/x-matroska")]

def lastIndexOf (unit : CodeUnit) (text : Text) : Option Nat :=
  if unit ∈ text then some (text.length - 1 - text.reverse.idxOf unit) else none

def missingExtension : ValidationError where
  code := "MISSING_EXTENSION"
  message := "The uploaded file name must include a supported extension."
  httpStatus := 422

def unsupportedExtension (extension : Text) : ValidationError where
  code := "UNSUPPORTED_EXTENSION"
  message := "The uploaded file extension is not supported."
  httpStatus := 422
  details := some [("extension", .own (.str extension))]

/-- An index that is zero or negative and one at the end are refused. -/
def resolveExtensionPolicy (engine : Engine) (originalFilename : Text) :
    Except ValidationError (Property ExtensionPolicy) :=
  (normalizeOriginalFilename originalFilename).bind fun normalized =>
    match lastIndexOf 0x2E normalized with
    | none | some 0 => .error missingExtension
    | some finalDot =>
        if finalDot = normalized.length - 1 then .error missingExtension
        else
          let extension := engine.toLowerCase (normalized.drop (finalDot + 1))
          match property policies extension with
          | none => .error (unsupportedExtension extension)
          | some resolved => .ok resolved

end Extension

section MimeType

def aliases : List (String × String) :=
  [("application/octet-stream", "application/octet-stream"),
    ("application/ogg", "audio/ogg"),
    ("audio/aac", "audio/aac"),
    ("audio/aacp", "audio/aac"),
    ("audio/flac", "audio/flac"),
    ("audio/m4a", "audio/mp4"),
    ("audio/mp3", "audio/mpeg"),
    ("audio/mp4", "audio/mp4"),
    ("audio/mpeg", "audio/mpeg"),
    ("audio/ogg", "audio/ogg"),
    ("audio/wav", "audio/wav"),
    ("audio/wave", "audio/wav"),
    ("audio/x-aac", "audio/aac"),
    ("audio/x-flac", "audio/flac"),
    ("audio/x-m4a", "audio/mp4"),
    ("audio/x-mp3", "audio/mpeg"),
    ("audio/x-wav", "audio/wav"),
    ("image/jpeg", "image/jpeg"),
    ("image/jpg", "image/jpeg"),
    ("image/pjpeg", "image/jpeg"),
    ("image/png", "image/png"),
    ("image/webp", "image/webp"),
    ("image/x-png", "image/png"),
    ("video/matroska", "video/x-matroska"),
    ("video/mp4", "video/mp4"),
    ("video/quicktime", "video/quicktime"),
    ("video/webm", "video/webm"),
    ("video/x-matroska", "video/x-matroska")]

def unsupportedMimeType (normalized : Text) : ValidationError where
  code := "UNSUPPORTED_MIME_TYPE"
  message := "The uploaded file MIME type is not supported."
  httpStatus := 422
  details :=
    if normalized.length = 0 then none else some [("declaredMimeType", .own (.str normalized))]

def canonicalizeDeclaredMimeType (engine : Engine) (declared : Text) :
    Except ValidationError (Property String) :=
  let normalized := engine.toLowerCase (Text.trim (declared.takeWhile (· ≠ 0x3B)))
  match property aliases normalized with
  | none => .error (unsupportedMimeType normalized)
  | some canonical => .ok canonical

/-- An inherited property is no text. -/
def isDeclaredMimeCompatible (policy : ExtensionPolicy)
    (canonicalDeclaredMimeType : Property String) : Bool :=
  match canonicalDeclaredMimeType with
  | .own mimeType => mimeType = "application/octet-stream" || mimeType = policy.detectedMimeType
  | .inherited _ => false

end MimeType

end PostsMedia.Validation
