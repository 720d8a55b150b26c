import PostsMedia.Validation.Limits
import PostsMedia.Validation.Normal

namespace PostsMedia.Validation

/-- One file of a request before anything is known about it but its bytes. -/
structure SubmittedFile where
  path : String
  originalname : Text
  mimetype : Text
  content : Bytes

/-- What a request names besides its files. -/
inductive RequestTarget
  | createPost (title content : Text)
  | addPostMedia (postId : Text)

structure SubmittedRequest where
  target : RequestTarget
  files : List SubmittedFile

/-- The inspection tools read nothing but the bytes of a file. -/
structure Tools where
  sha256 : Bytes → String
  metadata : Bytes → Option SharpMetadata
  decodes : Bytes → Bool
  probe : Bytes → ProbeResult

def maxHeaderBytes : Nat := 4096

/-- What the calls on a file return when they depend only on its bytes. -/
def Tools.observe (tools : Tools) (file : SubmittedFile) : UploadedFile where
  path := file.path
  originalname := file.originalname
  mimetype := file.mimetype
  size := some file.content.length
  header := some (file.content.take maxHeaderBytes)
  metadata := tools.metadata file.content
  decodes := tools.decodes file.content
  probe := tools.probe file.content
  headerAgain := some (file.content.take maxHeaderBytes)
  checksum := some (tools.sha256 file.content)

namespace Fingerprint

structure FingerprintFile where
  originalFilename : Text
  declaredMimeType : Property Text
  sizeBytes : Text
  checksumSha256 : String
  deriving DecidableEq

/-- The canonical value. A property keeps its name beside its value. -/
structure Input where
  operation : String
  routeParams : List (String × Text)
  body : List (String × Text)
  files : List FingerprintFile
  deriving DecidableEq

section Build

variable (engine : Engine) (tools : Tools) (stringify : Input → Bytes)

def safeFilename (originalFilename : Text) : Text :=
  match normalizeOriginalFilename originalFilename with
  | .ok normalized => normalized
  | .error _ => originalFilename

def safeMimeType (declaredMimeType : Text) : Property Text :=
  match canonicalizeDeclaredMimeType engine declaredMimeType with
  | .ok (.own canonical) => .own (Text.ofString canonical)
  | .ok (.inherited name) => .inherited name
  | .error _ => .own declaredMimeType

def fingerprintFile (file : SubmittedFile) : FingerprintFile where
  originalFilename := safeFilename file.originalname
  declaredMimeType := safeMimeType engine file.mimetype
  sizeBytes := engine.numberToString (.ofRat file.content.length)
  checksumSha256 := tools.sha256 file.content

/-- The input of the fingerprint that the two services build. -/
def input (request : SubmittedRequest) : Input :=
  let files := request.files.map (fingerprintFile engine tools)
  match request.target with
  | .createPost title content =>
      { operation := "CREATE_POST"
        routeParams := []
        body := [("title", title), ("content", content)]
        files := files }
  | .addPostMedia postId =>
      { operation := "ADD_POST_MEDIA"
        routeParams := [("postId", postId)]
        body := []
        files := files }

/-- The digest of the serialized canonical value. -/
def compute (request : SubmittedRequest) : String :=
  tools.sha256 (stringify (input engine tools request))

end Build

/-- Everything that is hashed for a request. -/
def hashed (engine : Engine) (tools : Tools) (stringify : Input → Bytes)
    (request : SubmittedRequest) : List Bytes :=
  stringify (input engine tools request) :: request.files.map (·.content)

/-- The digest tells the hashed bytes of two requests apart, and the serialization their canonical
values. -/
structure CollisionFree (engine : Engine) (tools : Tools) (stringify : Input → Bytes)
    (first second : SubmittedRequest) : Prop where
  digest : ∀ x ∈ hashed engine tools stringify first, ∀ y ∈ hashed engine tools stringify second,
    tools.sha256 x = tools.sha256 y → x = y
  serial : stringify (input engine tools first) = stringify (input engine tools second) →
    input engine tools first = input engine tools second

section Names

variable {engine : Engine} {raw other : Text}

/-- The normalization fails in one way only. -/
theorem normalize_error {error : ValidationError}
    (failed : normalizeOriginalFilename raw = .error error) : error = invalidOriginalFilename := by
  unfold normalizeOriginalFilename at failed
  dsimp only at failed
  split at failed <;> cases failed
  rfl

/-- A raw name that stands for itself cannot be taken for a normalized one. -/
theorem normalize_eq_of_safeFilename (same : safeFilename raw = safeFilename other) :
    normalizeOriginalFilename raw = normalizeOriginalFilename other := by
  unfold safeFilename at same
  cases first : normalizeOriginalFilename raw with
  | ok normalized =>
      cases second : normalizeOriginalFilename other with
      | ok normalized' =>
          rw [first, second] at same
          exact congrArg _ same
      | error error =>
          rw [first, second] at same
          subst same
          rw [(normal_of_normalized first).normalize] at second
          cases second
  | error error =>
      cases second : normalizeOriginalFilename other with
      | ok normalized' =>
          rw [first, second] at same
          subst same
          rw [(normal_of_normalized second).normalize] at first
          cases first
      | error error' => rw [normalize_error first, normalize_error second]

/-- Every canonical type is ASCII text in lower case and an alias of itself. -/
theorem aliases_canonical : ∀ entry ∈ aliases,
    ((Text.ofString entry.2).all (· < 0x80) = true ∧
      (Text.ofString entry.2).map Text.lowerUnit = Text.ofString entry.2) ∧
    Text.trim ((Text.ofString entry.2).takeWhile (· ≠ 0x3B)) = Text.ofString entry.2 ∧
      property aliases (Text.ofString entry.2) = some (.own entry.2) := by
  decide +kernel

theorem aliases_ofString : ∀ entry ∈ aliases, ∀ entry' ∈ aliases,
    Text.ofString entry.2 = Text.ofString entry'.2 → entry.2 = entry'.2 := by
  decide +kernel

/-- A canonical type is its own canonical type. -/
theorem canonicalize_canonical {entry : String × String} (member : entry ∈ aliases) :
    canonicalizeDeclaredMimeType engine (Text.ofString entry.2) = .ok (.own entry.2) := by
  obtain ⟨⟨ascii, lower⟩, trimmed, found⟩ := aliases_canonical entry member
  have lowered : engine.toLowerCase (Text.ofString entry.2) = Text.ofString entry.2 := by
    rw [engine.toLowerCase_ascii, lower]
    simpa using ascii
  unfold canonicalizeDeclaredMimeType
  rw [trimmed, lowered]
  dsimp only
  rw [found]

theorem alias_of_canonicalize {canonical : String}
    (found : canonicalizeDeclaredMimeType engine raw = .ok (.own canonical)) :
    ∃ key, (key, canonical) ∈ aliases := by
  unfold canonicalizeDeclaredMimeType at found
  dsimp only at found
  split at found
  · cases found
  · rename_i here
    cases found
    obtain ⟨key, member, _⟩ := property_own here
    exact ⟨key, member⟩

/-- A refused type that stands for itself cannot be taken for a canonical one. -/
theorem refused_ne_canonical {canonical : String} {error : ValidationError}
    (found : canonicalizeDeclaredMimeType engine raw = .ok (.own canonical))
    (refused : canonicalizeDeclaredMimeType engine other = .error error) :
    Text.ofString canonical ≠ other := by
  rintro rfl
  obtain ⟨key, member⟩ := alias_of_canonicalize found
  rw [canonicalize_canonical member] at refused
  cases refused

theorem canonicalize_eq_of_safeMimeType
    (same : safeMimeType engine raw = safeMimeType engine other) :
    canonicalizeDeclaredMimeType engine raw = canonicalizeDeclaredMimeType engine other := by
  unfold safeMimeType at same
  cases first : canonicalizeDeclaredMimeType engine raw with
  | ok canonical =>
      cases second : canonicalizeDeclaredMimeType engine other with
      | ok canonical' =>
          rw [first, second] at same
          cases canonical with
          | own mimeType =>
              cases canonical' with
              | own mimeType' =>
                  obtain ⟨key, member⟩ := alias_of_canonicalize first
                  obtain ⟨key', member'⟩ := alias_of_canonicalize second
                  have texts : Text.ofString mimeType = Text.ofString mimeType' :=
                    Property.own.inj same
                  have types : mimeType = mimeType' := aliases_ofString _ member _ member' texts
                  rw [types]
              | inherited name => cases same
          | inherited name =>
              cases canonical' with
              | own mimeType' => cases same
              | inherited name' =>
                  cases same
                  rfl
      | error error =>
          rw [first, second] at same
          cases canonical with
          | own mimeType =>
              exact absurd (Property.own.inj same) (refused_ne_canonical first second)
          | inherited name => cases same
  | error error =>
      cases second : canonicalizeDeclaredMimeType engine other with
      | ok canonical' =>
          rw [first, second] at same
          cases canonical' with
          | own mimeType' =>
              exact absurd (Property.own.inj same).symm (refused_ne_canonical second first)
          | inherited name => cases same
      | error error' =>
          rw [first, second] at same
          rw [Property.own.inj same] at first
          rw [← first, second]

end Names

end Fingerprint

section Observations

variable {engine : Engine} {configuration : UploadConfiguration} {file other : UploadedFile}
variable {files others : List UploadedFile} {order order' : List Nat} {fileIndex sizeBytes : Nat}

/-- The validation cannot tell the files apart but by their paths. -/
structure Alike (engine : Engine) (file other : UploadedFile) : Prop where
  filename : normalizeOriginalFilename file.originalname =
    normalizeOriginalFilename other.originalname
  mimeType : canonicalizeDeclaredMimeType engine file.mimetype =
    canonicalizeDeclaredMimeType engine other.mimetype
  size : file.size = other.size
  header : file.header = other.header
  metadata : file.metadata = other.metadata
  decodes : file.decodes = other.decodes
  probe : file.probe = other.probe
  headerAgain : file.headerAgain = other.headerAgain
  checksum : file.checksum = other.checksum

/-- The upload without its path. -/
def ValidatedUpload.pathless (upload : ValidatedUpload) : ValidatedUpload :=
  { upload with temporaryPath := "" }

/-- The outcome without the path of an accepted upload. -/
def FileValidationOutcome.pathless (outcome : FileValidationOutcome) : FileValidationOutcome :=
  outcome.map ValidatedUpload.pathless

theorem Attempt.map_bind {α β γ : Type} (attempt : Attempt α) (next : α → Attempt β) (f : β → γ) :
    (attempt >>= next).map f = attempt >>= fun value => (next value).map f := by
  cases attempt <;> rfl

/-- Nothing that is checked depends on the path. -/
theorem checkFile_pathless :
    (checkFile engine configuration file fileIndex sizeBytes).map ValidatedUpload.pathless =
      checkFile engine configuration { file with path := "" } fileIndex sizeBytes := by
  simp only [checkFile, Attempt.map_bind]
  rfl

theorem inspect_alike (alike : Alike engine file other) (policy : ExtensionPolicy) :
    inspect engine configuration file policy = inspect engine configuration other policy := by
  unfold inspect
  rw [alike.metadata, alike.decodes, alike.probe, alike.headerAgain]

theorem checkFile_alike (alike : Alike engine file other) :
    (checkFile engine configuration file fileIndex sizeBytes).map ValidatedUpload.pathless =
      (checkFile engine configuration other fileIndex sizeBytes).map ValidatedUpload.pathless := by
  have inspected (policy : ExtensionPolicy) :
      inspect engine configuration { file with path := "" } policy =
        inspect engine configuration { other with path := "" } policy := inspect_alike alike policy
  rw [checkFile_pathless, checkFile_pathless]
  simp only [checkFile, inspected]
  simp only [alike.filename, alike.mimeType, alike.header, alike.checksum]

/-- An error shows no more of a name than its normalization. -/
theorem toFileError_alike (alike : Alike engine file other) (error : ValidationError) :
    toFileError fileIndex file.originalname error =
      toFileError fileIndex other.originalname error := by
  unfold toFileError safeFilename
  rw [alike.filename]

theorem validateFile_alike (alike : Alike engine file other) :
    (validateFile engine configuration file fileIndex sizeBytes).pathless =
      (validateFile engine configuration other fileIndex sizeBytes).pathless := by
  have checked : (checkFile engine configuration file fileIndex sizeBytes).map
      ValidatedUpload.pathless = (checkFile engine configuration other fileIndex sizeBytes).map
        ValidatedUpload.pathless := checkFile_alike alike
  unfold validateFile
  cases first : checkFile engine configuration file fileIndex sizeBytes with
  | ok upload =>
      cases second : checkFile engine configuration other fileIndex sizeBytes with
      | ok upload' =>
          rw [first, second] at checked
          have uploads : upload.pathless = upload'.pathless := Except.ok.inj checked
          exact congrArg Except.ok uploads
      | error thrown =>
          rw [first, second] at checked
          cases checked
  | error thrown =>
      cases second : checkFile engine configuration other fileIndex sizeBytes with
      | ok upload' =>
          rw [first, second] at checked
          cases checked
      | error thrown' =>
          rw [first, second] at checked
          cases checked
          cases thrown with
          | domain error => exact congrArg Except.error (toFileError_alike alike error)
          | native => exact congrArg Except.error (toFileError_alike alike corruptedFile)

theorem totalUpTo_alike (alike : List.Forall₂ (Alike engine) files others) (k : Nat) :
    totalUpTo files k = totalUpTo others k := by
  induction alike generalizing k with
  | nil => rfl
  | cons first rest ih =>
      cases k with
      | zero => rw [totalUpTo_zero, totalUpTo_zero, first.size]
      | succ k => rw [totalUpTo_succ, totalUpTo_succ, first.size, ih]

theorem preflightError_alike (alike : List.Forall₂ (Alike engine) files others)
    (here : Alike engine file other) :
    preflightError configuration files fileIndex file =
      preflightError configuration others fileIndex other := by
  unfold preflightError
  rw [here.size, totalUpTo_alike alike, toFileError_alike here, toFileError_alike here,
    toFileError_alike here]

/-- Requests whose files look alike have the same outcomes, in whatever order their stat calls
end. -/
theorem outcomes_alike (alike : List.Forall₂ (Alike engine) files others)
    (completed : Completed configuration order files)
    (completed' : Completed configuration order' others) :
    (validateFiles engine configuration order files).outcomes.map FileValidationOutcome.pathless =
      (validateFiles engine configuration order' others).outcomes.map
        FileValidationOutcome.pathless := by
  apply List.ext_getElem?
  intro k
  rw [List.getElem?_map, List.getElem?_map, outcomes_getElem?, outcomes_getElem?]
  have length : files.length = others.length := alike.length_eq
  cases found : files[k]? with
  | none =>
      have missing : others[k]? = none := by
        rw [List.getElem?_eq_none_iff] at found ⊢
        omega
      rw [missing]
      rfl
  | some file =>
      obtain ⟨inside, here⟩ := List.getElem?_eq_some_iff.mp found
      have inside' : k < others.length := by omega
      have found' : others[k]? = some others[k] := List.getElem?_eq_getElem inside'
      have pair : Alike engine file others[k] := by
        rw [← here]
        exact alike.get inside inside'
      rw [found', Option.map_some, Option.map_some, Option.map_some, Option.map_some,
        outcome_eq completed found, outcome_eq completed' found', preflightError_alike alike pair]
      cases preflightError configuration others k others[k] with
      | some failure => rfl
      | none =>
          rw [pair.size]
          exact congrArg some (validateFile_alike pair)

end Observations

section Requests

variable {engine : Engine} {tools : Tools} {stringify : Fingerprint.Input → Bytes}
variable {first second : SubmittedRequest}

open Fingerprint

/-- The two requests name the same thing, and no validation tells their files apart. -/
structure SameRequest (engine : Engine) (tools : Tools) (first second : SubmittedRequest) :
    Prop where
  target : first.target = second.target
  count : first.files.length = second.files.length
  outcomes : ∀ configuration order order',
    Completed configuration order (first.files.map tools.observe) →
    Completed configuration order' (second.files.map tools.observe) →
    (validateFiles engine configuration order (first.files.map tools.observe)).outcomes.map
        FileValidationOutcome.pathless =
      (validateFiles engine configuration order' (second.files.map tools.observe)).outcomes.map
        FileValidationOutcome.pathless

/-- The names of the canonical value give the target back. -/
theorem target_of_input (same : input engine tools first = input engine tools second) :
    first.target = second.target := by
  unfold input at same
  cases target : first.target with
  | createPost title content =>
      cases target' : second.target with
      | createPost title' content' =>
          simp only [target, target', Input.mk.injEq] at same
          have fields : [("title", title), ("content", content)] =
              [("title", title'), ("content", content')] := same.2.2.1
          simp only [List.cons.injEq, Prod.mk.injEq] at fields
          rw [fields.1.2, fields.2.1.2]
      | addPostMedia postId =>
          simp only [target, target', Input.mk.injEq] at same
          exact absurd same.1 (by decide)
  | addPostMedia postId =>
      cases target' : second.target with
      | createPost title' content' =>
          simp only [target, target', Input.mk.injEq] at same
          exact absurd same.1 (by decide)
      | addPostMedia postId' =>
          simp only [target, target', Input.mk.injEq] at same
          have fields : [("postId", postId)] = [("postId", postId')] := same.2.1
          simp only [List.cons.injEq, Prod.mk.injEq] at fields
          rw [fields.1.2]

theorem files_of_input (same : input engine tools first = input engine tools second) :
    first.files.map (fingerprintFile engine tools) =
      second.files.map (fingerprintFile engine tools) := by
  have files (request : SubmittedRequest) : (input engine tools request).files =
      request.files.map (fingerprintFile engine tools) := by
    unfold input
    cases request.target <;> rfl
  rw [← files, ← files, same]

/-- Files with equal entries look alike when their contents are those of the checksums. -/
theorem alike_of_fingerprintFile {file other : SubmittedFile}
    (digest : tools.sha256 file.content = tools.sha256 other.content →
      file.content = other.content)
    (same : fingerprintFile engine tools file = fingerprintFile engine tools other) :
    Alike engine (tools.observe file) (tools.observe other) := by
  simp only [fingerprintFile, FingerprintFile.mk.injEq] at same
  obtain ⟨filename, mimeType, _, checksum⟩ := same
  have content : file.content = other.content := digest checksum
  constructor
  · exact normalize_eq_of_safeFilename filename
  · exact canonicalize_eq_of_safeMimeType mimeType
  all_goals simp only [Tools.observe, content]

theorem alike_of_files {files others : List SubmittedFile}
    (digest : ∀ file ∈ files, ∀ other ∈ others,
      tools.sha256 file.content = tools.sha256 other.content → file.content = other.content)
    (same : files.map (fingerprintFile engine tools) = others.map (fingerprintFile engine tools)) :
    List.Forall₂ (Alike engine) (files.map tools.observe) (others.map tools.observe) := by
  induction files generalizing others with
  | nil =>
      cases others with
      | nil => exact .nil
      | cons other others => cases same
  | cons file files ih =>
      cases others with
      | nil => cases same
      | cons other others =>
          simp only [List.map_cons, List.cons.injEq] at same
          have here : Alike engine (tools.observe file) (tools.observe other) :=
            alike_of_fingerprintFile (digest file (by simp) other (by simp)) same.1
          have later : List.Forall₂ (Alike engine) (files.map tools.observe)
              (others.map tools.observe) := by
            apply ih _ same.2
            intro file' inside other' inside'
            exact digest file' (by simp [inside]) other' (by simp [inside'])
          exact .cons here later

/-- A replay of the first outcome answers the second request. -/
theorem fingerprint_sound (engine : Engine) (tools : Tools) (stringify : Input → Bytes)
    (first second : SubmittedRequest) (free : CollisionFree engine tools stringify first second)
    (same : compute engine tools stringify first = compute engine tools stringify second) :
    SameRequest engine tools first second := by
  have serial : stringify (input engine tools first) = stringify (input engine tools second) := by
    apply free.digest _ _ _ _ same
    · simp [hashed]
    · simp [hashed]
  have inputs : input engine tools first = input engine tools second := free.serial serial
  have digest : ∀ file ∈ first.files, ∀ other ∈ second.files,
      tools.sha256 file.content = tools.sha256 other.content → file.content = other.content := by
    intro file inside other inside'
    apply free.digest
    · exact List.mem_cons_of_mem _ (List.mem_map_of_mem inside)
    · exact List.mem_cons_of_mem _ (List.mem_map_of_mem inside')
  have alike : List.Forall₂ (Alike engine) (first.files.map tools.observe)
      (second.files.map tools.observe) := alike_of_files digest (files_of_input inputs)
  constructor
  · exact target_of_input inputs
  · simpa using alike.length_eq
  · intro configuration order order' completed completed'
    exact outcomes_alike alike completed completed'

end Requests

section Sample

/-- The bytes of a text in ASCII. -/
def asciiBytes (s : String) : Bytes := s.toList.map Char.toUInt8

def photoContent : Bytes := [0xFF, 0xD8, 0xFF]

def photoChecksum : String := "6e568e1f67fba258184c78181539e5e8fdee447e49bb706fc0ea34fbf12336a5"

/-- The canonical value of both sample requests in JSON. -/
def holidayJson : Bytes :=
  asciiBytes "\x7b\"body\":\x7b\"content\":\"Sea\",\"title\":\"Holiday\"\x7d,\"files\":[" ++
    asciiBytes "\x7b\"checksumSha256\":\"" ++ asciiBytes photoChecksum ++
    asciiBytes "\",\"declaredMimeType\":\"image/jpeg\",\"originalFilename\":\"Photo.JPG\"" ++
    asciiBytes ",\"sizeBytes\":\"3\"\x7d],\"operation\":\"CREATE_POST\",\"routeParams\":" ++
    asciiBytes "\x7b\x7d\x7d"

/-- The tools on the two byte strings of the sample. -/
def sampleTools : Tools where
  sha256 bytes :=
    if bytes = photoContent then photoChecksum
    else "55009d3355a4d0de6906d844166722bf7cc77437a0194ac91335084c50b2f259"
  metadata _ := samplePhoto.metadata
  decodes _ := samplePhoto.decodes
  probe _ := samplePhoto.probe

/-- A post with the sample photo under some name and some type. -/
def holidayRequest (path originalname mimetype : String) : SubmittedRequest where
  target := .createPost (Text.ofString "Holiday") (Text.ofString "Sea")
  files := [⟨path, Text.ofString originalname, Text.ofString mimetype, photoContent⟩]

/-- A name with a directory and an alias of the type make no other request. -/
theorem holidayRequest_sound :
    SameRequest sampleEngine sampleTools
      (holidayRequest "/tmp/upload-0" "holiday/Photo.JPG" "image/jpg")
      (holidayRequest "/tmp/upload-1" "Photo.JPG" "IMAGE/JPEG; q=1") := by
  apply fingerprint_sound sampleEngine sampleTools fun _ => holidayJson
  · constructor
    · decide +kernel
    · intro _
      decide +kernel
  · show sampleTools.sha256 holidayJson = sampleTools.sha256 holidayJson
    rfl

end Sample

end PostsMedia.Validation
