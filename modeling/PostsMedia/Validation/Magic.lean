import PostsMedia.Library.Trials
import PostsMedia.Validation.Signature

namespace PostsMedia.Validation

open Trials

/-- The bytes of a text of ASCII letters. -/
def letters (value : String) : Bytes := value.toList.map fun letter => .ofNat letter.toNat

section Reference

variable (header : Bytes)

/-- The header has the bytes of a text at an offset. -/
def magicAt (offset : Nat) (value : String) : Bool :=
  (header.drop offset).take value.length = letters value

/-- The bytes of the major brand and of the compatible brands. -/
def brandBytes (boxSize : Nat) : List Bytes :=
  (header.drop 8).take 4 ::
    (List.range ((boxSize - 16) / 4)).map fun index => (header.drop (16 + 4 * index)).take 4

/-- The file type box has a size that the header contains. -/
def wholeBox : Bool :=
  let boxSize := readUInt32BE header 0
  16 ≤ header.length && 16 ≤ boxSize && boxSize ≤ header.length && boxSize % 4 = 0

/-- The box has one of these brands, byte for byte. -/
def branded (names : List String) : Bool :=
  names.any fun name => (brandBytes header (readUInt32BE header 0)).contains (letters name)

/-- The box has one of these brands, as the decoder shows it. -/
def brandedAscii (names : List String) : Bool :=
  names.any fun name => (brands header (readUInt32BE header 0)).contains (Text.ofString name)

def audioBrands : List String := ["M4A ", "M4B ", "M4P "]

/-- The evidence of the brands that are there byte for byte. -/
def exactIsoEvidence : Option IsoEvidence :=
  if ¬ wholeBox header then none
  else if branded header ["qt  "] then some ⟨some .mov, false⟩
  else if branded header audioBrands then some ⟨some .m4a, false⟩
  else if branded header sharedBrands then some ⟨none, true⟩
  else none

/-- The detection for an ISO file with this evidence. -/
def isoDetection (evidence : Option IsoEvidence) : SignatureDetection where
  format := "iso-bmff"
  mimeType := "application/mp4"
  containerFamily := some .isoBmff
  containerVariant := evidence.bind (·.variant)
  sharedIso := (evidence.map (·.shared)).getD false

def ebmlDetection (variant : Option ContainerVariant) : SignatureDetection where
  format := "ebml"
  mimeType := "application/x-ebml"
  containerFamily := some .ebml
  containerVariant := variant

/-- The result for a header without any of the texts. -/
def untextedSignature : Except ValidationError SignatureDetection :=
  if startsWith header [0x1A, 0x45, 0xDF, 0xA3] then .ok (ebmlDetection (parseEbmlDocType header))
  else .error unknownFileSignature

/-- The signatures, compared byte for byte in the order of the detector. -/
def exactSignature : Except ValidationError SignatureDetection :=
  if header.length = 0 then .error emptyFile
  else if startsWith header [0xFF, 0xD8, 0xFF] then .ok (known "jpeg" "image/jpeg" .image)
  else if startsWith header [0x89, 0x50, 0x4E, 0x47, 0x0D, 0x0A, 0x1A, 0x0A] then
    .ok (known "png" "image/png" .image)
  else if magicAt header 0 "RIFF" && magicAt header 8 "WEBP" then
    .ok (known "webp" "image/webp" .image)
  else if magicAt header 0 "RIFF" && magicAt header 8 "WAVE" then
    .ok (known "wav" "audio/wav" .audio)
  else if magicAt header 0 "ID3" || isMpegAudioFrame header then
    .ok (known "mp3" "audio/mpeg" .audio)
  else if isAdts header then .ok (known "aac" "audio/aac" .audio)
  else if magicAt header 0 "fLaC" then .ok (known "flac" "audio/flac" .audio)
  else if magicAt header 0 "OggS" then .ok (known "ogg" "audio/ogg" .audio)
  else if magicAt header 4 "ftyp" then .ok (isoDetection (exactIsoEvidence header))
  else untextedSignature header

/-- The tests in their order, on the decoded text and on the bytes. -/
def trials : List (Trial (Except ValidationError SignatureDetection)) :=
  let jpeg := startsWith header [0xFF, 0xD8, 0xFF]
  let png := startsWith header [0x89, 0x50, 0x4E, 0x47, 0x0D, 0x0A, 0x1A, 0x0A]
  [⟨jpeg, jpeg, .ok (known "jpeg" "image/jpeg" .image)⟩,
    ⟨png, png, .ok (known "png" "image/png" .image)⟩,
    ⟨asciiAt header 0 "RIFF" && asciiAt header 8 "WEBP",
      magicAt header 0 "RIFF" && magicAt header 8 "WEBP",
      .ok (known "webp" "image/webp" .image)⟩,
    ⟨asciiAt header 0 "RIFF" && asciiAt header 8 "WAVE",
      magicAt header 0 "RIFF" && magicAt header 8 "WAVE",
      .ok (known "wav" "audio/wav" .audio)⟩,
    ⟨asciiAt header 0 "ID3" || isMpegAudioFrame header,
      magicAt header 0 "ID3" || isMpegAudioFrame header,
      .ok (known "mp3" "audio/mpeg" .audio)⟩,
    ⟨isAdts header, isAdts header, .ok (known "aac" "audio/aac" .audio)⟩,
    ⟨asciiAt header 0 "fLaC", magicAt header 0 "fLaC", .ok (known "flac" "audio/flac" .audio)⟩,
    ⟨asciiAt header 0 "OggS", magicAt header 0 "OggS", .ok (known "ogg" "audio/ogg" .audio)⟩,
    ⟨asciiAt header 4 "ftyp" && wholeBox header && brandedAscii header ["qt  "],
      magicAt header 4 "ftyp" && wholeBox header && branded header ["qt  "],
      .ok (isoDetection (some ⟨some .mov, false⟩))⟩,
    ⟨asciiAt header 4 "ftyp" && wholeBox header && brandedAscii header audioBrands,
      magicAt header 4 "ftyp" && wholeBox header && branded header audioBrands,
      .ok (isoDetection (some ⟨some .m4a, false⟩))⟩,
    ⟨asciiAt header 4 "ftyp" && wholeBox header && brandedAscii header sharedBrands,
      magicAt header 4 "ftyp" && wholeBox header && branded header sharedBrands,
      .ok (isoDetection (some ⟨none, true⟩))⟩,
    ⟨asciiAt header 4 "ftyp", magicAt header 4 "ftyp", .ok (isoDetection none)⟩]

/-- The first test that the decoded text passes is passed by the bytes too. -/
def TextExact : Prop :=
  ∀ trial, (trials header).find? Trial.coarse = some trial → trial.fine

instance : Decidable (TextExact header) :=
  match found : (trials header).find? Trial.coarse with
  | none => isTrue fun trial same => by simp [found] at same
  | some first => decidable_of_iff (first.fine = true) (by
      unfold TextExact
      simp [found])

end Reference

variable {header : Bytes}

theorem parseIsoEvidence_eq (typed : asciiAt header 4 "ftyp") :
    parseIsoEvidence header =
      if ¬ wholeBox header then none
      else if brandedAscii header ["qt  "] then some ⟨some .mov, false⟩
      else if brandedAscii header audioBrands then some ⟨some .m4a, false⟩
      else if brandedAscii header sharedBrands then some ⟨none, true⟩
      else none := by
  unfold parseIsoEvidence
  by_cases whole : wholeBox header
  · have facts := whole
    simp only [wholeBox, Bool.and_eq_true, decide_eq_true_eq] at facts
    obtain ⟨⟨⟨long, least⟩, most⟩, multiple⟩ := facts
    simp [typed, whole, not_lt.mpr long, not_lt.mpr least, not_lt.mpr most, multiple, brandedAscii,
      audioBrands]
  · have facts := whole
    simp only [wholeBox, Bool.and_eq_true, decide_eq_true_eq, not_and_or, not_le] at facts
    rw [if_pos whole]
    rcases facts with ((short | small) | large) | odd
    · simp [short]
    · simp [small]
    · simp [large]
    · simp [odd]

/-- The evidence decides between four results. -/
theorem iso_chain (typed whole mov audio shared : Bool)
    (otherwise : Except ValidationError SignatureDetection) :
    (if typed then .ok (isoDetection (
      if ¬ whole then none
      else if mov then some ⟨some .mov, false⟩
      else if audio then some ⟨some .m4a, false⟩
      else if shared then some ⟨none, true⟩
      else none)) else otherwise) =
    if typed && whole && mov then .ok (isoDetection (some ⟨some .mov, false⟩))
    else if typed && whole && audio then .ok (isoDetection (some ⟨some .m4a, false⟩))
    else if typed && whole && shared then .ok (isoDetection (some ⟨none, true⟩))
    else if typed then .ok (isoDetection none)
    else otherwise := by
  cases typed <;> cases whole <;> cases mov <;> cases audio <;> cases shared <;> rfl

theorem exactSignature_eq (nonempty : header.length ≠ 0) :
    exactSignature header = firstOf Trial.fine (trials header) (untextedSignature header) := by
  rw [exactSignature, if_neg nonempty, exactIsoEvidence, iso_chain]
  rfl

theorem detectHeaderSignature_eq (nonempty : header.length ≠ 0) :
    detectHeaderSignature header =
      firstOf Trial.coarse (trials header) (untextedSignature header) := by
  have iso : (if asciiAt header 4 "ftyp" then
      .ok (isoDetection (parseIsoEvidence header)) else untextedSignature header) =
      firstOf Trial.coarse ((trials header).drop 8) (untextedSignature header) := by
    by_cases typed : asciiAt header 4 "ftyp"
    · rw [parseIsoEvidence_eq typed, iso_chain]
      rfl
    · simp [trials, firstOf, typed]
  rw [detectHeaderSignature, if_neg nonempty]
  simp only [trials, firstOf, List.drop_succ_cons, List.drop_zero] at iso ⊢
  rw [← iso]
  rfl

/-- The bytes of a text are decoded to it. -/
theorem asciiAt_of_magicAt {offset : Nat} {value : String}
    (plain : ascii (letters value) = Text.ofString value) (shown : magicAt header offset value) :
    asciiAt header offset value := by
  simp only [magicAt, decide_eq_true_eq] at shown
  simp only [asciiAt, shown, plain, decide_true]

theorem brandedAscii_of_branded {names : List String}
    (plain : ∀ name ∈ names, ascii (letters name) = Text.ofString name)
    (shown : branded header names) : brandedAscii header names := by
  simp only [branded, List.any_eq_true, List.contains_iff_mem] at shown
  obtain ⟨name, member, brand⟩ := shown
  have decoded : brands header (readUInt32BE header 0) =
      (brandBytes header (readUInt32BE header 0)).map ascii := by
    rw [brands, brandBytes, List.map_cons, List.map_map]
    rfl
  simp only [brandedAscii, List.any_eq_true, List.contains_iff_mem]
  refine ⟨name, member, ?_⟩
  rw [decoded, ← plain name member]
  exact List.mem_map_of_mem brand

theorem trials_finer : ∀ trial ∈ trials header, trial.fine → trial.coarse := by
  have riff := @asciiAt_of_magicAt header 0 "RIFF" (by decide)
  have box := @asciiAt_of_magicAt header 4 "ftyp" (by decide)
  intro trial member
  simp only [trials, List.mem_cons, List.not_mem_nil, or_false] at member
  rcases member with rfl | rfl | rfl | rfl | rfl | rfl | rfl | rfl | rfl | rfl | rfl | rfl
  all_goals
    intro fine
    simp only [Bool.and_eq_true, Bool.or_eq_true] at fine ⊢
  · exact fine
  · exact fine
  · exact ⟨riff fine.1, asciiAt_of_magicAt (by decide) fine.2⟩
  · exact ⟨riff fine.1, asciiAt_of_magicAt (by decide) fine.2⟩
  · exact fine.imp_left (asciiAt_of_magicAt (by decide))
  · exact fine
  · exact asciiAt_of_magicAt (by decide) fine
  · exact asciiAt_of_magicAt (by decide) fine
  · exact ⟨⟨box fine.1.1, fine.1.2⟩, brandedAscii_of_branded (by decide) fine.2⟩
  · exact ⟨⟨box fine.1.1, fine.1.2⟩, brandedAscii_of_branded (by decide) fine.2⟩
  · exact ⟨⟨box fine.1.1, fine.1.2⟩, brandedAscii_of_branded (by decide) fine.2⟩
  · exact box fine

/-- The results of the tests, which the header does not change. -/
theorem trials_results (header : Bytes) : (trials header).map Trial.result =
    [known "jpeg" "image/jpeg" .image, known "png" "image/png" .image,
      known "webp" "image/webp" .image, known "wav" "audio/wav" .audio,
      known "mp3" "audio/mpeg" .audio, known "aac" "audio/aac" .audio,
      known "flac" "audio/flac" .audio, known "ogg" "audio/ogg" .audio,
      isoDetection (some ⟨some .mov, false⟩), isoDetection (some ⟨some .m4a, false⟩),
      isoDetection (some ⟨none, true⟩), isoDetection none].map Except.ok := rfl

theorem trials_distinct (header : Bytes) : ((trials header).map Trial.result).Nodup := by
  rw [trials_results]
  apply List.Nodup.map
  · intro _ _ same
    exact Except.ok.inj same
  · decide

theorem untexted_apart (header : Bytes) :
    untextedSignature header ∉ (trials header).map Trial.result := by
  rw [trials_results, untextedSignature, List.mem_map]
  rintro ⟨signature, member, same⟩
  split at same
  · obtain rfl := Except.ok.inj same
    have format : "ebml" ∈ List.map SignatureDetection.format _ := List.mem_map_of_mem member
    revert format
    decide
  · cases same

/-- The decoded texts find the signature that the bytes have exactly when the first one that the
header shows is there byte for byte. -/
theorem detectHeaderSignature_iff (header : Bytes) :
    detectHeaderSignature header = exactSignature header ↔ TextExact header := by
  by_cases nonempty : header.length = 0
  · obtain rfl := List.length_eq_zero_iff.mp nonempty
    have exact : TextExact [] := by decide
    simp [exact, detectHeaderSignature, exactSignature]
  · rw [detectHeaderSignature_eq nonempty, exactSignature_eq nonempty]
    exact firstOf_eq_iff trials_finer (trials_distinct header) (untexted_apart header)

/-- Three bytes with the highest bit of the first one set pass for an MP3 tag. -/
theorem highBit_mp3 : ¬ ∀ header : Bytes, header ≠ [] →
    detectHeaderSignature header = exactSignature header := by
  intro same
  have decoded : detectHeaderSignature [0xC9, 0x44, 0x33] =
      .ok (known "mp3" "audio/mpeg" .audio) := rfl
  have exact : exactSignature [0xC9, 0x44, 0x33] = .error unknownFileSignature := rfl
  have both := same [0xC9, 0x44, 0x33] (by decide)
  rw [decoded, exact] at both
  cases both

end PostsMedia.Validation
