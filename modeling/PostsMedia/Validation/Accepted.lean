import PostsMedia.Validation.Files

namespace PostsMedia.Validation

namespace Attempt

variable {α β : Type} {attempt : Attempt α} {error : ValidationError}

theorem bind_eq_ok {next : α → Attempt β} {result : β} :
    (attempt >>= next) = .ok result ↔ ∃ value, attempt = .ok value ∧ next value = .ok result := by
  cases attempt with
  | error thrown => simp [Bind.bind, Except.bind]
  | ok value => simp [Bind.bind, Except.bind]

theorem map_eq_ok {f : α → β} {result : β} :
    attempt.map f = .ok result ↔ ∃ value, attempt = .ok value ∧ f value = result := by
  cases attempt with
  | error thrown => simp [Except.map]
  | ok value => simp [Except.map]

theorem pure_eq_ok {value result : α} : (pure value : Attempt α) = .ok result ↔ value = result := by
  simp [pure, Except.pure]

theorem throwIf_eq_ok {condition : Bool} {u : Unit} :
    throwIf condition error = .ok u ↔ condition = false := by
  cases condition <;> simp [throwIf, reject]

theorem ofOption_eq_ok {value : Option α} {result : α} :
    ofOption value = .ok result ↔ value = some result := by
  cases value <;> simp [ofOption, native]

theorem ofExcept_eq_ok {value : Except ValidationError α} {result : α} :
    ofExcept value = .ok result ↔ value = .ok result := by
  cases value <;> simp [ofExcept, reject]

end Attempt

open Attempt

variable {engine : Engine} {configuration : UploadConfiguration} {file : UploadedFile}
variable {fileIndex sizeBytes : Nat} {upload : ValidatedUpload}

/-- All checks of one file have passed, with these intermediate results. -/
structure Passes (engine : Engine) (configuration : UploadConfiguration) (file : UploadedFile)
    (sizeBytes : Nat) (policy : ExtensionPolicy) (signature : SignatureDetection)
    (inspection : Inspection) (upload : ValidatedUpload) : Prop where
  nonempty : 0 < sizeBytes
  filename : normalizeOriginalFilename file.originalname = .ok upload.originalFilename
  extension : resolveExtensionPolicy engine upload.originalFilename = .ok (.own policy)
  declared : canonicalizeDeclaredMimeType engine file.mimetype = .ok upload.declaredMimeType
  detects : detect file.header = .ok signature
  agrees : signatureMatchesPolicy signature policy = true
  compatible : isDeclaredMimeCompatible policy upload.declaredMimeType = true
  inspects : inspect engine configuration file policy = .ok inspection
  format : inspection.format = policy.format
  mimeType : inspection.mimeType = policy.detectedMimeType
  size : sizeBytes ≤ maximumBytes configuration policy.mediaType
  safe : assertInspectionSafety engine configuration policy.mediaType inspection = .ok ()
  checksum : file.checksum = some upload.checksumSha256

/-- The upload holds what the checks have found. -/
structure Describes (file : UploadedFile) (fileIndex sizeBytes : Nat) (policy : ExtensionPolicy)
    (inspection : Inspection) (upload : ValidatedUpload) : Prop where
  fileIndex : upload.fileIndex = fileIndex
  temporaryPath : upload.temporaryPath = file.path
  extension : upload.extension = policy.extension
  detectedMimeType : upload.detectedMimeType = inspection.mimeType
  detectedFormat : upload.detectedFormat = inspection.format
  mediaType : upload.mediaType = policy.mediaType
  sizeBytes : upload.sizeBytes = sizeBytes
  preliminaryMetadata : upload.preliminaryMetadata = inspection.preliminaryMetadata

theorem agreedPolicy_ok {policy : Property ExtensionPolicy} {declared : Property String}
    {signature : SignatureDetection} {row : ExtensionPolicy}
    (agreed : agreedPolicy policy declared signature = .ok row) :
    policy = .own row ∧ signatureMatchesPolicy signature row = true ∧
      isDeclaredMimeCompatible row declared = true := by
  cases policy with
  | own row' =>
      rw [agreedPolicy] at agreed
      split at agreed
      · rename_i both
        rw [Bool.and_eq_true] at both
        cases agreed
        exact ⟨rfl, both⟩
      · cases agreed
  | inherited name => cases agreed

/-- A file is accepted only after all its checks. -/
theorem checkFile_ok (accepted : checkFile engine configuration file fileIndex sizeBytes =
      .ok upload) : ∃ policy signature inspection,
    Passes engine configuration file sizeBytes policy signature inspection upload ∧
      Describes file fileIndex sizeBytes policy inspection upload := by
  simp only [checkFile, bind_eq_ok, throwIf_eq_ok, ofExcept_eq_ok, pure_eq_ok] at accepted
  obtain ⟨_, nonempty, originalFilename, filename, extensionPolicy, extension, declaredMimeType,
    declared, signature, detected, policy, agreed, inspection, inspects, _, same, _, size, _, safe,
    checksum, calculated, rfl⟩ := accepted
  obtain ⟨rfl, matching, compatible⟩ := agreedPolicy_ok agreed
  rw [Bool.or_eq_false_iff, decide_eq_false_iff_not, decide_eq_false_iff_not, not_not,
    not_not] at same
  rw [decide_eq_false_iff_not] at nonempty size
  have read : file.checksum = some checksum := by
    cases found : file.checksum with
    | none =>
        rw [found] at calculated
        cases calculated
    | some checksum' =>
        rw [found] at calculated
        cases calculated
        rfl
  exact ⟨policy, signature, inspection,
    ⟨Nat.pos_of_ne_zero nonempty, filename, extension, declared, detected, matching, compatible,
      inspects, same.1, same.2, Nat.le_of_not_gt size, safe, read⟩,
    ⟨rfl, rfl, rfl, rfl, rfl, rfl, rfl, rfl⟩⟩

/-- The catch block accepts nothing. -/
theorem validateFile_ok (accepted : validateFile engine configuration file fileIndex sizeBytes =
      .ok upload) : ∃ policy signature inspection,
    Passes engine configuration file sizeBytes policy signature inspection upload ∧
      Describes file fileIndex sizeBytes policy inspection upload := by
  unfold validateFile at accepted
  split at accepted
  · rename_i checked
    cases accepted
    exact checkFile_ok checked
  · cases accepted
  · cases accepted

/-- An outcome carries the index of its file. -/
theorem validateFile_fileIndex :
    (validateFile engine configuration file fileIndex sizeBytes).fileIndex = fileIndex := by
  cases outcome : validateFile engine configuration file fileIndex sizeBytes with
  | ok upload =>
      obtain ⟨_, _, _, _, describes⟩ := validateFile_ok outcome
      exact describes.fileIndex
  | error error =>
      unfold validateFile at outcome
      split at outcome
      all_goals
        cases outcome
        try rfl

end PostsMedia.Validation
