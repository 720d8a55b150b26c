import PostsMedia.Storage.ObjectKey
import PostsMedia.Validation.Policy

namespace PostsMedia.Validation

inductive ContainerFamily
  | isoBmff
  | ebml
  deriving DecidableEq

inductive ContainerVariant
  | mp4
  | mov
  | m4a
  | webm
  | mkv
  deriving DecidableEq

def ContainerVariant.format : ContainerVariant → String
  | .mp4 => "mp4"
  | .mov => "mov"
  | .m4a => "m4a"
  | .webm => "webm"
  | .mkv => "mkv"

structure SignatureDetection where
  format : String
  mimeType : String
  mediaType : Option MediaType := none
  containerFamily : Option ContainerFamily := none
  containerVariant : Option ContainerVariant := none
  sharedIso : Bool := false
  deriving DecidableEq

def known (format mimeType : String) (mediaType : MediaType) : SignatureDetection where
  format := format
  mimeType := mimeType
  mediaType := some mediaType

section Header

variable (header : Bytes)

def startsWith (bytes : Bytes) : Bool := bytes.isPrefixOf header

/-- The decoding `ascii` clears the highest bit of every byte. -/
def ascii (bytes : Bytes) : Text := bytes.map fun byte => (byte &&& 0x7F).toUInt16

def asciiAt (offset : Nat) (value : String) : Bool :=
  ascii ((header.drop offset).take value.length) = Text.ofString value

def readUInt32BE (offset : Nat) : Nat :=
  ((header.drop offset).take 4).foldl (fun value byte => value * 256 + byte.toNat) 0

end Header

/-- An EBML integer takes at least one byte. -/
structure VariableInteger where
  length : Nat
  value : Nat
  positive : 0 < length

/-- The length of the integer is where the first bit of its first byte is set. A value that no
double holds exactly is refused. -/
def parseVariableInteger (buffer : Bytes) (offset : Nat) (retainMarker : Bool) :
    Option VariableInteger :=
  match buffer[offset]? with
  | none => none
  | some first =>
      if first = 0 then none
      else
        let marker := first.toNat.log2
        let start := if retainMarker then first.toNat else first.toNat % 2 ^ marker
        let rest := (buffer.drop (offset + 1)).take (7 - marker)
        let value := rest.foldl (fun value byte => value * 256 + byte.toNat) start
        if offset + (7 - marker + 1) > buffer.length then none
        else if value < 2 ^ 53 then some ⟨7 - marker + 1, value, Nat.succ_pos _⟩
        else none

def docTypeOf (text : Text) : Option ContainerVariant :=
  if text = Text.ofString "webm" then some .webm
  else if text = Text.ofString "matroska" then some .mkv
  else none

/-- The elements of the header from the cursor on, up to the first document type. -/
def parseElements (header : Bytes) (cursor stop : Nat) : Option ContainerVariant :=
  if cursor < stop then
    match parseVariableInteger header cursor true with
    | none => none
    | some id =>
        match parseVariableInteger header (cursor + id.length) false with
        | none => none
        | some size =>
            let start := cursor + id.length + size.length
            if start + size.value > stop then none
            else if id.value = 0x4282 then
              docTypeOf ((ascii ((header.drop start).take size.value)).map Text.lowerUnit)
            else parseElements header (start + size.value) stop
  else none
termination_by stop - cursor
decreasing_by
  have advances := id.positive
  omega

def parseEbmlDocType (header : Bytes) : Option ContainerVariant :=
  (parseVariableInteger header 4 false).bind fun headerSize =>
    let cursor := 4 + headerSize.length
    let stop := cursor + headerSize.value
    if stop > header.length then none else parseElements header cursor stop

structure IsoEvidence where
  variant : Option ContainerVariant
  shared : Bool

def sharedBrands : List String :=
  ["avc1", "dash", "iso2", "iso5", "iso6", "isom", "mp41", "mp42"]

/-- The major brand and the compatible brands of the box. -/
def brands (header : Bytes) (boxSize : Nat) : List Text :=
  ascii ((header.drop 8).take 4) ::
    (List.range ((boxSize - 16) / 4)).map fun index =>
      ascii ((header.drop (16 + 4 * index)).take 4)

def parseIsoEvidence (header : Bytes) : Option IsoEvidence :=
  let boxSize := readUInt32BE header 0
  let named (name : String) : Bool := (brands header boxSize).contains (Text.ofString name)
  if header.length < 16 || !asciiAt header 4 "ftyp" then none
  else if boxSize < 16 || boxSize > header.length || boxSize % 4 ≠ 0 then none
  else if named "qt  " then some ⟨some .mov, false⟩
  else if ["M4A ", "M4B ", "M4P "].any named then some ⟨some .m4a, false⟩
  else if sharedBrands.any named then some ⟨none, true⟩
  else none

def isMpegAudioFrame (header : Bytes) : Bool :=
  let second : UInt8 := header.getD 1 0
  let third : UInt8 := header.getD 2 0
  4 ≤ header.length && header[0]? = some 0xFF && second &&& 0xE0 = 0xE0 &&
    (second >>> 3) &&& 0x03 ≠ 0x01 && (second >>> 1) &&& 0x03 ≠ 0 &&
    (third >>> 4) &&& 0x0F ≠ 0 && (third >>> 4) &&& 0x0F ≠ 0x0F &&
    (third >>> 2) &&& 0x03 ≠ 0x03

def isAdts (header : Bytes) : Bool :=
  4 ≤ header.length && header[0]? = some 0xFF && header.getD 1 0 &&& 0xF6 = 0xF0

def emptyFile : ValidationError where
  code := "EMPTY_FILE"
  message := "The uploaded file is empty."
  httpStatus := 422

def unknownFileSignature : ValidationError where
  code := "UNKNOWN_FILE_SIGNATURE"
  message := "The uploaded file signature is not recognized."
  httpStatus := 422

def detectHeaderSignature (header : Bytes) : Except ValidationError SignatureDetection :=
  if header.length = 0 then .error emptyFile
  else if startsWith header [0xFF, 0xD8, 0xFF] then .ok (known "jpeg" "image/jpeg" .image)
  else if startsWith header [0x89, 0x50, 0x4E, 0x47, 0x0D, 0x0A, 0x1A, 0x0A] then
    .ok (known "png" "image/png" .image)
  else if asciiAt header 0 "RIFF" && asciiAt header 8 "WEBP" then
    .ok (known "webp" "image/webp" .image)
  else if asciiAt header 0 "RIFF" && asciiAt header 8 "WAVE" then
    .ok (known "wav" "audio/wav" .audio)
  else if asciiAt header 0 "ID3" || isMpegAudioFrame header then
    .ok (known "mp3" "audio/mpeg" .audio)
  else if isAdts header then .ok (known "aac" "audio/aac" .audio)
  else if asciiAt header 0 "fLaC" then .ok (known "flac" "audio/flac" .audio)
  else if asciiAt header 0 "OggS" then .ok (known "ogg" "audio/ogg" .audio)
  else if asciiAt header 4 "ftyp" then
    let evidence := parseIsoEvidence header
    .ok
      { format := "iso-bmff"
        mimeType := "application/mp4"
        containerFamily := some .isoBmff
        containerVariant := evidence.bind (·.variant)
        sharedIso := (evidence.map (·.shared)).getD false }
  else if startsWith header [0x1A, 0x45, 0xDF, 0xA3] then
    .ok
      { format := "ebml"
        mimeType := "application/x-ebml"
        containerFamily := some .ebml
        containerVariant := parseEbmlDocType header }
  else .error unknownFileSignature

def corruptedFile : ValidationError where
  code := "CORRUPTED_FILE"
  message := "The uploaded file could not be inspected."
  httpStatus := 422

/-- One read of the header of a file. -/
def detect (header : Option Bytes) : Except ValidationError SignatureDetection :=
  match header with
  | none => .error corruptedFile
  | some header => detectHeaderSignature header

end PostsMedia.Validation
