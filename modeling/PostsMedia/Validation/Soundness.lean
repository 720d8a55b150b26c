import Mathlib.Tactic.Linarith
import PostsMedia.Validation.Limits
import PostsMedia.Validation.Normal

namespace PostsMedia.Validation

open Attempt

section Names

variable {engine : Engine} {text : Text}

/-- The rest of a text after its last dot holds no dot. -/
theorem lastIndexOf_split {unit : CodeUnit} {index : Nat}
    (found : lastIndexOf unit text = some index) :
    text = text.take index ++ unit :: text.drop (index + 1) ∧ unit ∉ text.drop (index + 1) := by
  unfold lastIndexOf at found
  split at found
  · rename_i member
    cases found
    let first := text.reverse.idxOf unit
    have mirrored : unit ∈ text.reverse := List.mem_reverse.mpr member
    have inside : first < text.length := by
      rw [← List.length_reverse]
      exact List.idxOf_lt_length_of_mem mirrored
    have here : text[text.length - 1 - first]? = some unit := by
      rw [← List.getElem?_reverse inside]
      exact List.getElem?_idxOf mirrored
    obtain ⟨bound, same⟩ := List.getElem?_eq_some_iff.mp here
    constructor
    · conv_lhs => rw [← List.take_append_drop (text.length - 1 - first) text]
      rw [List.drop_eq_getElem_cons bound, same]
    · have tail : text.drop (text.length - 1 - first + 1) = (text.reverse.take first).reverse := by
        rw [List.reverse_take, List.reverse_reverse, List.length_reverse]
        congr 1
        omega
      rw [tail, List.mem_reverse, List.mem_take_iff_idxOf_lt mirrored]
      exact lt_irrefl _
  · cases found

/-- The extension of a row is its key. -/
theorem policies_extension : ∀ entry ∈ policies, entry.2.extension = entry.1 := by decide

theorem resolveExtensionPolicy_own {policy : ExtensionPolicy}
    (resolved : resolveExtensionPolicy engine text = .ok (.own policy)) :
    (policy.extension, policy) ∈ policies ∧ ∃ stem suffix,
      normalizeOriginalFilename text = .ok (stem ++ 0x2E :: suffix) ∧ 0x2E ∉ suffix ∧
        engine.toLowerCase suffix = Text.ofString policy.extension := by
  unfold resolveExtensionPolicy at resolved
  cases normalized : normalizeOriginalFilename text with
  | error error =>
      rw [normalized] at resolved
      cases resolved
  | ok normalized' =>
      rw [normalized, Except.bind] at resolved
      dsimp only at resolved
      split at resolved
      · cases resolved
      · cases resolved
      · rename_i finalDot dot
        split at resolved
        · cases resolved
        · split at resolved
          · cases resolved
          · rename_i found
            cases resolved
            obtain ⟨key, member, same⟩ := property_own found
            have extension : policy.extension = key := policies_extension _ member
            obtain ⟨parts, last⟩ := lastIndexOf_split dot
            rw [extension]
            exact ⟨member, _, _, congrArg Except.ok parts, last, same.symm⟩

end Names

section Signature

variable {header : Bytes} {signature : SignatureDetection} {audio video : List Value}
variable {policy : ExtensionPolicy} {format : String}

/-- The formats that a signature names by itself. -/
def plainFormats : List String := ["jpeg", "png", "webp", "wav", "mp3", "aac", "flac", "ogg"]

/-- The container family that the signature of a format shows. -/
def familyOf (format : String) : Option ContainerFamily :=
  if ["m4a", "mp4", "mov"].contains format then some .isoBmff
  else if ["webm", "mkv"].contains format then some .ebml
  else none

/-- Without a container the signature names a plain format, and an EBML container names only its
own variants. -/
structure Typed (signature : SignatureDetection) : Prop where
  plain : signature.containerFamily = none → signature.format ∈ plainFormats
  ebml : signature.containerFamily = some .ebml → ∀ variant,
    signature.containerVariant = some variant → variant = .webm ∨ variant = .mkv

theorem known_typed {mimeType : String} {mediaType : MediaType} (plain : format ∈ plainFormats) :
    Typed (known format mimeType mediaType) :=
  ⟨fun _ => plain, by simp [known]⟩

theorem iso_typed (iso : signature.containerFamily = some .isoBmff) : Typed signature :=
  ⟨by simp [iso], by simp [iso]⟩

theorem docTypeOf_variant {text : Text} {variant : ContainerVariant}
    (found : docTypeOf text = some variant) : variant = .webm ∨ variant = .mkv := by
  unfold docTypeOf at found
  split at found
  · cases found
    exact .inl rfl
  · split at found <;> cases found
    exact .inr rfl

theorem parseElements_variant {cursor stop : Nat} {variant : ContainerVariant}
    (found : parseElements header cursor stop = some variant) :
    variant = .webm ∨ variant = .mkv := by
  fun_induction parseElements header cursor stop with
  | case1 => cases found
  | case2 => cases found
  | case3 => cases found
  | case4 => exact docTypeOf_variant found
  | case5 _ _ _ _ _ _ _ _ _ ih => exact ih found
  | case6 => cases found

/-- A property of the value of the first branch and of the others is one of the result. -/
theorem ok_of_ite {α ε : Type} {P : α → Prop} {condition : Prop} [Decidable condition]
    {value result : α} {other : Except ε α} (first : P value)
    (later : other = .ok result → P result)
    (found : (if condition then .ok value else other) = .ok result) : P result := by
  split at found
  · cases found
    exact first
  · exact later found

theorem detect_typed {header : Option Bytes} (found : detect header = .ok signature) :
    Typed signature := by
  cases header with
  | none => cases found
  | some header =>
      rw [detect, detectHeaderSignature] at found
      by_cases empty : header.length = 0
      · rw [if_pos empty] at found
        cases found
      · rw [if_neg empty] at found
        revert found
        iterate 8 refine ok_of_ite (known_typed (by decide)) ?_
        refine ok_of_ite (iso_typed rfl) ?_
        refine ok_of_ite ⟨by simp, fun _ variant named => ?_⟩ fun found => ?_
        · obtain ⟨size, _, parsed⟩ := Option.bind_eq_some_iff.mp named
          dsimp only at parsed
          split at parsed
          · cases parsed
          · exact parseElements_variant parsed
        · cases found

theorem familyOf_plain : ∀ format ∈ plainFormats, familyOf format = none := by decide

theorem familyOf_ebml {variant : ContainerVariant} (ebml : variant = .webm ∨ variant = .mkv) :
    familyOf variant.format = some .ebml := by
  rcases ebml with rfl | rfl <;> decide

/-- The signature of an accepted file has the container family of its format. -/
theorem family_of_agrees (typed : Typed signature)
    (agrees : signatureMatchesPolicy signature policy = true) :
    signature.containerFamily = familyOf policy.format := by
  unfold signatureMatchesPolicy at agrees
  cases family : signature.containerFamily with
  | none =>
      simp only [family, Bool.and_eq_true, decide_eq_true_eq] at agrees
      rw [← agrees.1, familyOf_plain _ (typed.plain family)]
  | some family' =>
      cases family' with
      | isoBmff =>
          simp only [family, Bool.and_eq_true] at agrees
          rw [familyOf, if_pos agrees.1]
      | ebml =>
          simp only [family, Bool.and_eq_true, decide_eq_true_eq] at agrees
          obtain ⟨variant, named, same⟩ := Option.map_eq_some_iff.mp agrees.2
          rw [← same, familyOf_ebml (typed.ebml family variant named)]

/-- The format that the inspector derives has the container family of the signature. -/
theorem family_of_derived (typed : Typed signature)
    (derived : deriveFormat signature audio video = some format) :
    signature.containerFamily = familyOf format := by
  unfold deriveFormat at derived
  cases family : signature.containerFamily with
  | none =>
      simp only [family, Option.some.injEq] at derived
      rw [← derived, familyOf_plain _ (typed.plain family)]
  | some family' =>
      cases family' with
      | isoBmff =>
          simp only [family] at derived
          split at derived
          · rename_i named
            rcases named with mov | m4a
            · rw [mov] at derived
              cases derived
              decide
            · rw [m4a] at derived
              cases derived
              decide
          · split at derived
            · cases derived
            · split at derived
              · cases derived
                decide
              · split at derived <;> cases derived
                decide
      | ebml =>
          simp only [family] at derived
          obtain ⟨variant, named, same⟩ := Option.map_eq_some_iff.mp derived
          rw [← same, familyOf_ebml (typed.ebml family variant named)]

end Signature

section Streams

variable {engine : Engine} {document : Value} {streams values : List Value} {u : Unit}

/-- The stream has this kind. -/
def OfKind (kind : String) (stream : Value) : Prop :=
  (stream.chain "codec_type").isText kind = true

instance (kind : String) (stream : Value) : Decidable (OfKind kind stream) :=
  inferInstanceAs (Decidable (_ = true))

/-- A read that does not throw agrees with the optional chain. -/
theorem get_eq_chain {name : String} {value read : Value} (found : value.get name = some read) :
    read = value.chain name := by
  cases value with
  | undefined => cases found
  | null => cases found
  | _ =>
      cases found
      rfl

/-- Only an array of streams can be filtered, and a missing one has no streams. -/
theorem streamsOf_ok (read : streamsOf document = .ok streams) (nonempty : streams ≠ []) :
    document.get "streams" = some (.arr streams) := by
  simp only [streamsOf, bind_eq_ok, ofOption_eq_ok] at read
  obtain ⟨value, found, items⟩ := read
  rw [found]
  cases value with
  | arr items' =>
      cases items
      rfl
  | undefined =>
      cases items
      exact absurd rfl nonempty
  | null =>
      cases items
      exact absurd rfl nonempty
  | _ => cases items

theorem streamsOfType_ok {kind : String} {result : List Value}
    (filtered : streamsOfType kind streams = .ok result) :
    result = streams.filter fun stream => OfKind kind stream := by
  induction streams generalizing result with
  | nil =>
      cases filtered
      rfl
  | cons stream rest ih =>
      simp only [streamsOfType, bind_eq_ok, ofOption_eq_ok, pure_eq_ok] at filtered
      obtain ⟨codecType, read, others, later, rfl⟩ := filtered
      rw [get_eq_chain read, ih later, List.filter_cons]
      by_cases kindly : (stream.chain "codec_type").isText kind = true
      · simp [OfKind, kindly]
      · simp [OfKind, kindly]

/-- The codec of an audio stream is supported. -/
def SupportedAudio (stream : Value) : Prop := ∃ codec, stream.chain "codec_name" = .str codec ∧
  (Text.ofString "pcm_" <+: codec ∨ ∃ name ∈ supportedAudioCodecs, codec = Text.ofString name)

/-- The codec of a video stream is supported. -/
def SupportedVideo (stream : Value) : Prop :=
  ∃ name ∈ supportedVideoCodecs, stream.chain "codec_name" = .str (Text.ofString name)

theorem isText_iff {expected : String} {value : Value} :
    value.isText expected = true ↔ value = .str (Text.ofString expected) := by
  cases value <;> simp [Value.isText]

theorem checkAudioCodecs_ok (checked : checkAudioCodecs streams = .ok u) :
    ∀ stream ∈ streams, SupportedAudio stream := by
  induction streams with
  | nil => simp
  | cons stream rest ih =>
      rw [checkAudioCodecs] at checked
      split at checked
      · cases checked
      · rename_i codec named
        split at checked
        · cases checked
        · rename_i supported
          have here : SupportedAudio stream := by
            refine ⟨codec, named, ?_⟩
            simp only [Bool.and_eq_true, Bool.not_eq_true', not_and, Bool.not_eq_false,
              List.any_eq_true, isText_iff, Value.str.injEq] at supported
            cases pcm : (Text.ofString "pcm_").isPrefixOf codec with
            | true => exact .inl (List.isPrefixOf_iff_prefix.mp pcm)
            | false => exact .inr (supported pcm)
          exact List.forall_mem_cons.mpr ⟨here, ih checked⟩
      · cases checked

theorem checkVideoCodecs_ok (checked : checkVideoCodecs streams = .ok u) :
    ∀ stream ∈ streams, SupportedVideo stream := by
  induction streams with
  | nil => simp
  | cons stream rest ih =>
      rw [checkVideoCodecs] at checked
      split at checked
      · cases checked
      · split at checked
        · cases checked
        · rename_i supported
          have here : SupportedVideo stream := by
            simpa [SupportedVideo, isText_iff] using supported
          exact List.forall_mem_cons.mpr ⟨here, ih checked⟩

/-- A side that passes its check is a positive integer. -/
theorem validDimension_iff {value : Value} :
    validDimension value = true ↔ ∃ n : Int, value = .num (.finite n) ∧ 1 ≤ n := by
  constructor
  · intro valid
    cases value with
    | num number =>
        cases number with
        | finite q =>
            simp only [validDimension, Number.isInteger, Number.lt, Bool.and_eq_true,
              decide_eq_true_eq] at valid
            obtain ⟨integer, positive⟩ := valid
            have same : q = q.num := Rat.eq_num_of_isInt integer
            rw [same] at positive ⊢
            exact ⟨q.num, rfl, by exact_mod_cast positive⟩
        | _ => simp [validDimension, Number.isInteger] at valid
    | _ => cases valid
  · rintro ⟨n, rfl, positive⟩
    have above : (0 : ℚ) < n := by exact_mod_cast positive
    simp [validDimension, Number.isInteger, Number.lt, above, Rat.isInt]

theorem gt_num (x y : ℚ) :
    Value.gt engine (.num (.finite x)) (.num (.finite y)) = some (decide (y < x)) := rfl

/-- The greatest of some numbers is one of them and at least as great as each. -/
theorem maximumFrom_num {m : ℚ} {result : Value}
    (numbers : ∀ value ∈ values, ∃ n : ℚ, value = .num (.finite n))
    (found : maximumFrom engine (.num (.finite m)) values = .ok result) :
    ∃ M : ℚ, result = .num (.finite M) ∧ m ≤ M ∧
      ∀ n : ℚ, Value.num (.finite n) ∈ values → n ≤ M := by
  induction values generalizing m with
  | nil =>
      cases found
      exact ⟨m, rfl, le_refl m, by simp⟩
  | cons value rest ih =>
      obtain ⟨n, rfl⟩ := numbers value List.mem_cons_self
      simp only [maximumFrom, bind_eq_ok, ofOption_eq_ok, gt_num, Option.some.injEq] at found
      obtain ⟨_, rfl, later⟩ := found
      have others : ∀ value ∈ rest, ∃ n : ℚ, value = .num (.finite n) :=
        fun value member => numbers value (List.mem_cons_of_mem _ member)
      by_cases greater : m < n
      · simp only [greater, decide_true, if_true] at later
        obtain ⟨M, same, above, all⟩ := ih others later
        refine ⟨M, same, greater.le.trans above, fun other member => ?_⟩
        rcases List.mem_cons.mp member with first | member
        · cases first
          exact above
        · exact all other member
      · simp only [greater, decide_false, Bool.false_eq_true, if_false] at later
        obtain ⟨M, same, above, all⟩ := ih others later
        refine ⟨M, same, above, fun other member => ?_⟩
        rcases List.mem_cons.mp member with first | member
        · cases first
          exact (not_lt.mp greater).trans above
        · exact all other member

/-- A greatest side within its limit bounds every side. -/
theorem sides_bounded {result : Value} {field : String} {maximum : Nat}
    (numbers : ∀ value ∈ values, ∃ n : ℚ, value = .num (.finite n))
    (found : maximumDefined engine values = .ok result)
    (within : assertSide engine field result maximum = .ok u) :
    ∀ n : ℚ, Value.num (.finite n) ∈ values → n ≤ maximum := by
  cases values with
  | nil => simp
  | cons value rest =>
      obtain ⟨first, rfl⟩ := numbers value List.mem_cons_self
      have others : ∀ value ∈ rest, ∃ n : ℚ, value = .num (.finite n) :=
        fun value member => numbers value (List.mem_cons_of_mem _ member)
      obtain ⟨M, rfl, above, all⟩ := maximumFrom_num others found
      simp only [assertSide, bind_eq_ok, ofOption_eq_ok, gt_num, Option.some.injEq,
        throwIf_eq_ok] at within
      obtain ⟨_, rfl, limit⟩ := within
      rw [decide_eq_false_iff_not, not_lt] at limit
      intro n member
      rcases List.mem_cons.mp member with here | member
      · cases here
        exact above.trans limit
      · exact (all n member).trans limit

end Streams

section Document

variable {engine : Engine} {configuration : UploadConfiguration} {document : Value}
variable {mediaType : MediaType} {expectedFormat : String} {signature : SignatureDetection}
variable {inspection : AvInspection} {streams : List Value} {duration : ℚ} {u : Unit}

def kindOf (mediaType : MediaType) : String := if mediaType = .audio then "audio" else "video"

def streamsOfKind (kind : String) (streams : List Value) : List Value :=
  streams.filter fun stream => OfKind kind stream

theorem mem_streamsOfKind {kind : String} {stream : Value} :
    stream ∈ streamsOfKind kind streams ↔ stream ∈ streams ∧ OfKind kind stream := by
  simp [streamsOfKind]

/-- What an inspection says about its document. -/
structure Inspected (engine : Engine) (document : Value) (mediaType : MediaType)
    (expectedFormat : String) (signature : SignatureDetection) (inspection : AvInspection)
    (streams : List Value) (duration : ℚ) : Prop where
  present : document.get "streams" = some (.arr streams)
  family : signature.containerFamily = familyOf expectedFormat
  required : ∃ stream ∈ streams, OfKind (kindOf mediaType) stream
  audioOnly : mediaType = .audio → ∀ stream ∈ streams, ¬ OfKind "video" stream
  audioCodecs : ∀ stream ∈ streams, OfKind "audio" stream → SupportedAudio stream
  videoCodecs : ∀ stream ∈ streams, OfKind "video" stream → SupportedVideo stream
  measured : mediaDuration engine document (streamsOfKind (kindOf mediaType) streams) =
    .ok (.finite duration)
  reported : inspection.durationSeconds = .finite duration
  positive : 0 < duration
  count : inspection.streamCount = streams.length
  width : maximumDefined engine ((streamsOfKind "video" streams).map (·.chain "width")) =
    .ok inspection.width
  height : maximumDefined engine ((streamsOfKind "video" streams).map (·.chain "height")) =
    .ok inspection.height
  sides : mediaType = .video → ∀ stream ∈ streams, OfKind "video" stream →
    validDimension (stream.chain "width") = true ∧ validDimension (stream.chain "height") = true

theorem formatOf_ok {audioStreams videoStreams : List Value} {format : String}
    (derived : formatOf signature audioStreams videoStreams = .ok format) :
    deriveFormat signature audioStreams videoStreams = some format := by
  unfold formatOf at derived
  split at derived
  · rename_i found
    cases derived
    exact found
  · cases derived

/-- The streams that the format of an audio file allows include no video. -/
theorem audio_contract {audioStreams videoStreams : List Value} {format : String}
    (audio : mediaTypeForFormat format = some .audio)
    (contract : streamContractMatches format audioStreams videoStreams = true) :
    videoStreams = [] := by
  unfold mediaTypeForFormat at audio
  split at audio
  · rename_i known
    rw [streamContractMatches, if_pos known, Bool.and_eq_true, decide_eq_true_eq,
      decide_eq_true_eq] at contract
    exact List.length_eq_zero_iff.mp contract.2
  · split at audio <;> cases audio

theorem validateDocument_ok (typed : Typed signature)
    (accepted : validateDocument engine document mediaType expectedFormat signature =
      .ok inspection) : ∃ streams duration,
    Inspected engine document mediaType expectedFormat signature inspection streams duration := by
  simp only [validateDocument, bind_eq_ok, throwIf_eq_ok, pure_eq_ok] at accepted
  obtain ⟨streams, read, audioStreams, audio, videoStreams, video, formatNames, _, actualFormat,
    derived, _, same, _, typeMatches, _, present, _, contract, _, audioChecked, _, videoChecked,
    durationSeconds, measured, _, positive, width, widest, height, highest, _, sides, rfl⟩ :=
    accepted
  have audioSame : audioStreams = streamsOfKind "audio" streams := streamsOfType_ok audio
  have videoSame : videoStreams = streamsOfKind "video" streams := streamsOfType_ok video
  subst audioSame videoSame
  have required : (if mediaType = .audio then streamsOfKind "audio" streams
      else streamsOfKind "video" streams) = streamsOfKind (kindOf mediaType) streams := by
    unfold kindOf
    split <;> rfl
  rw [required] at present measured
  rw [Bool.or_eq_false_iff, decide_eq_false_iff_not, not_not] at same
  rw [decide_eq_false_iff_not, not_not] at typeMatches
  rw [decide_eq_false_iff_not, List.length_eq_zero_iff] at present
  have nonempty : streams ≠ [] := by
    rintro rfl
    exact present rfl
  rw [Bool.or_eq_false_iff, Bool.not_eq_false', Bool.not_eq_false'] at positive
  obtain ⟨finite, above⟩ := positive
  cases durationSeconds with
  | nan => cases finite
  | infinity negative => cases finite
  | finite duration =>
      refine ⟨streams, duration, streamsOf_ok read nonempty, ?_, ?_, ?_, ?_, ?_, measured, rfl,
        by simpa [Number.lt] using above, rfl, widest, highest, ?_⟩
      · rw [← same.1]
        exact family_of_derived typed (formatOf_ok derived)
      · obtain ⟨stream, member⟩ := List.exists_mem_of_ne_nil _ present
        exact ⟨stream, mem_streamsOfKind.mp member⟩
      · intro audio stream member ofKind
        rw [audio] at typeMatches
        rw [Bool.not_eq_false'] at contract
        have none := mem_streamsOfKind.mpr ⟨member, ofKind⟩
        rw [audio_contract typeMatches contract] at none
        cases none
      · intro stream member ofKind
        exact checkAudioCodecs_ok audioChecked stream (mem_streamsOfKind.mpr ⟨member, ofKind⟩)
      · intro stream member ofKind
        exact checkVideoCodecs_ok videoChecked stream (mem_streamsOfKind.mpr ⟨member, ofKind⟩)
      · intro video stream member ofKind
        rw [decide_eq_true video, Bool.true_and, List.any_eq_false] at sides
        have valid := sides stream (mem_streamsOfKind.mpr ⟨member, ofKind⟩)
        simpa using valid

end Document

/-- The sides of an accepted image. -/
structure SoundImage (configuration : UploadConfiguration) (file : UploadedFile)
    (upload : ValidatedUpload) (width height pages : Int) : Prop where
  read : ∃ metadata, file.metadata = some metadata ∧
    metadata.format = some upload.detectedFormat ∧ metadata.width = some width ∧
    metadata.pageHeight.or metadata.height = some height ∧ metadata.pages.getD 1 = pages
  decodes : file.decodes = true
  reported : upload.preliminaryMetadata = [("width", .num (.finite width)),
    ("height", .num (.finite height)), ("pages", .num (.finite pages))]
  onePage : pages ≤ 1
  positive : 1 ≤ width ∧ 1 ≤ height
  pixels : width * height ≤ configuration.maxImagePixels

/-- The sides of a video stream are integers within the limits. -/
def BoundedSides (configuration : UploadConfiguration) (stream : Value) : Prop :=
  ∃ width height : Int, stream.chain "width" = .num (.finite width) ∧
    stream.chain "height" = .num (.finite height) ∧
    1 ≤ width ∧ width ≤ configuration.maxVideoWidth ∧
    1 ≤ height ∧ height ≤ configuration.maxVideoHeight

/-- The streams of an accepted audio or video file. -/
structure SoundMedia (engine : Engine) (configuration : UploadConfiguration)
    (file : UploadedFile) (upload : ValidatedUpload) (document : Value) (streams : List Value)
    (duration : ℚ) : Prop where
  probed : file.probe = .document document
  present : document.get "streams" = some (.arr streams)
  family : ∃ signature, detect file.headerAgain = .ok signature ∧
    signature.containerFamily = familyOf upload.detectedFormat
  required : ∃ stream ∈ streams, OfKind (kindOf upload.mediaType) stream
  audioOnly : upload.mediaType = .audio → ∀ stream ∈ streams, ¬ OfKind "video" stream
  audioCodecs : ∀ stream ∈ streams, OfKind "audio" stream → SupportedAudio stream
  videoCodecs : ∀ stream ∈ streams, OfKind "video" stream → SupportedVideo stream
  measured : mediaDuration engine document (streamsOfKind (kindOf upload.mediaType) streams) =
    .ok (.finite duration)
  reported : ("durationSeconds", .num (.finite duration)) ∈ upload.preliminaryMetadata
  positive : 0 < duration
  limit : duration ≤ maximumDuration configuration upload.mediaType
  count : streams.length ≤ configuration.maxMediaStreams
  sides : upload.mediaType = .video → ∀ stream ∈ streams, OfKind "video" stream →
    BoundedSides configuration stream

/-- What is true of every accepted file. -/
structure Sound (engine : Engine) (configuration : UploadConfiguration) (file : UploadedFile)
    (upload : ValidatedUpload) : Prop where
  name : normalizeOriginalFilename file.originalname = .ok upload.originalFilename
  suffix : ∃ stem suffix, upload.originalFilename = stem ++ 0x2E :: suffix ∧ 0x2E ∉ suffix ∧
    engine.toLowerCase suffix = Text.ofString upload.extension
  policy : ∃ policy, (upload.extension, policy) ∈ policies ∧
    upload.mediaType = policy.mediaType ∧ upload.detectedFormat = policy.format ∧
      upload.detectedMimeType = policy.detectedMimeType
  declared : ∃ mimeType,
    canonicalizeDeclaredMimeType engine file.mimetype = .ok (.own mimeType) ∧
      (mimeType = "application/octet-stream" ∨ mimeType = upload.detectedMimeType)
  size : file.size = some upload.sizeBytes
  nonempty : 0 < upload.sizeBytes
  limit : upload.sizeBytes ≤ maximumBytes configuration upload.mediaType
  family : ∃ signature, detect file.header = .ok signature ∧
    signature.containerFamily = familyOf upload.detectedFormat
  image : upload.mediaType = .image →
    ∃ width height pages, SoundImage configuration file upload width height pages
  media : upload.mediaType ≠ .image → ∃ document streams duration,
    SoundMedia engine configuration file upload document streams duration

section File

variable {engine : Engine} {configuration : UploadConfiguration} {file : UploadedFile}
variable {policy : ExtensionPolicy} {signature : SignatureDetection} {upload : ValidatedUpload}
variable {fileIndex sizeBytes : Nat}

theorem assertImageSafety_ok {maxPixels : Nat} {inspection : ImageInspection} {u : Unit}
    (safe : assertImageSafety maxPixels inspection = .ok u) : inspection.pages ≤ 1 ∧
      Doubles.toDouble (inspection.width * inspection.height) ≤ maxPixels := by
  unfold assertImageSafety at safe
  split at safe
  · cases safe
  · rename_i pages
    split at safe
    · cases safe
    · rename_i pixels
      exact ⟨not_lt.mp pages, not_lt.mp pixels⟩

/-- The product of two positive integers within the limit is exact. -/
theorem product_le {maxPixels : Limit} {width height : Int} (positive : 1 ≤ width ∧ 1 ≤ height)
    (within : Doubles.toDouble (width * height) ≤ maxPixels.val) :
    width * height ≤ maxPixels.val := by
  obtain ⟨w, rfl⟩ := Int.eq_ofNat_of_zero_le (show 0 ≤ width by omega)
  obtain ⟨h, rfl⟩ := Int.eq_ofNat_of_zero_le (show 0 ≤ height by omega)
  have product : Doubles.toDouble ((w * h : Nat) : ℚ) ≤ maxPixels.val := by
    push_cast at within ⊢
    exact within
  exact_mod_cast Doubles.le_of_toDouble_le maxPixels.property.2 product

theorem inspectImage_ok {maxPixels : Limit} {metadata : Option SharpMetadata} {decodes : Bool}
    {inspection : ImageInspection}
    (accepted : inspectImage maxPixels metadata decodes = .ok inspection) :
    (∃ found, metadata = some found ∧ found.format = some inspection.format ∧
      found.width = some inspection.width ∧
      found.pageHeight.or found.height = some inspection.height ∧
      found.pages.getD 1 = inspection.pages) ∧ decodes = true ∧ inspection.pages ≤ 1 ∧
    (1 ≤ inspection.width ∧ 1 ≤ inspection.height) ∧
    inspection.width * inspection.height ≤ maxPixels.val := by
  unfold inspectImage at accepted
  split at accepted
  · cases accepted
  · rename_i found
    dsimp only at accepted
    split at accepted
    · rename_i format mimeType width height named _ wide high
      split at accepted
      · cases accepted
      · rename_i positive
        cases safety : assertImageSafety maxPixels
            ⟨format, mimeType, width, height, found.pages.getD 1⟩ with
        | error error =>
            rw [safety] at accepted
            cases accepted
        | ok u =>
            rw [safety, Except.bind] at accepted
            split at accepted
            · rename_i decoded
              cases accepted
              have sides : 1 ≤ width ∧ 1 ≤ height := by omega
              obtain ⟨pages, pixels⟩ := assertImageSafety_ok safety
              exact ⟨⟨found, rfl, named, wide, high, rfl⟩, decoded, pages, sides,
                product_le sides pixels⟩
            · cases accepted
    · cases accepted

theorem assertSafety_ok {inspection : AvInspection} {mediaType : MediaType} {u : Unit}
    (safe : assertSafety engine configuration inspection mediaType = .ok u) :
    inspection.streamCount ≤ configuration.maxMediaStreams ∧
    Number.lt (.finite (maximumDuration configuration mediaType)) inspection.durationSeconds =
      false ∧
    (mediaType = .video →
      assertSide engine "width" inspection.width configuration.maxVideoWidth = .ok u ∧
      assertSide engine "height" inspection.height configuration.maxVideoHeight = .ok u) := by
  simp only [assertSafety, bind_eq_ok, throwIf_eq_ok, decide_eq_false_iff_not, not_lt] at safe
  obtain ⟨_, count, _, duration, sides⟩ := safe
  refine ⟨count, duration, fun video => ?_⟩
  rw [if_pos video, bind_eq_ok] at sides
  exact ⟨sides.choose_spec.1, sides.choose_spec.2⟩

theorem inspectAv_ok {probe : ProbeResult} {header : Option Bytes} {mediaType : MediaType}
    {expectedFormat : String} {inspection : AvInspection}
    (accepted : inspectAv engine configuration probe header mediaType expectedFormat false =
      .ok inspection) : ∃ document signature, probe = .document document ∧
    detect header = .ok signature ∧
    validateDocument engine document mediaType expectedFormat signature = .ok inspection := by
  simp only [inspectAv, bind_eq_ok, ofExcept_eq_ok] at accepted
  obtain ⟨document, probed, signature, detected, inspection', validated, _, _, rfl⟩ := accepted
  refine ⟨document, signature, ?_, detected, validated⟩
  cases probe with
  | document found =>
      cases probed
      rfl
  | timeout => cases probed
  | corrupted => cases probed

/-- The sides of the video streams are positive integers within their limits. -/
theorem boundedSides {document : Value} {mediaType : MediaType} {format : String}
    {inspection : AvInspection} {streams : List Value} {duration : ℚ} {u : Unit}
    (inspected : Inspected engine document mediaType format signature inspection streams duration)
    (safe : assertSafety engine configuration inspection mediaType = .ok u)
    (video : mediaType = .video) {stream : Value} (member : stream ∈ streams)
    (ofKind : OfKind "video" stream) : BoundedSides configuration stream := by
  obtain ⟨wide, high⟩ := (assertSafety_ok safe).2.2 video
  have valid := inspected.sides video
  have numbers (name : String)
      (sides : ∀ other ∈ streams, OfKind "video" other →
        validDimension (other.chain name) = true) :
      ∀ value ∈ (streamsOfKind "video" streams).map (·.chain name),
        ∃ n : ℚ, value = .num (.finite n) := by
    intro value side
    obtain ⟨other, known, rfl⟩ := List.mem_map.mp side
    obtain ⟨present, kindly⟩ := mem_streamsOfKind.mp known
    obtain ⟨n, same, _⟩ := validDimension_iff.mp (sides other present kindly)
    exact ⟨n, same⟩
  have mine : stream ∈ streamsOfKind "video" streams := mem_streamsOfKind.mpr ⟨member, ofKind⟩
  obtain ⟨width, isWidth, widthPositive⟩ := validDimension_iff.mp (valid stream member ofKind).1
  obtain ⟨height, isHeight, heightPositive⟩ := validDimension_iff.mp (valid stream member ofKind).2
  have widthBound : (width : ℚ) ≤ configuration.maxVideoWidth.val :=
    sides_bounded (numbers "width" fun other present kindly => (valid other present kindly).1)
      inspected.width wide width (isWidth ▸ List.mem_map_of_mem mine)
  have heightBound : (height : ℚ) ≤ configuration.maxVideoHeight.val :=
    sides_bounded (numbers "height" fun other present kindly => (valid other present kindly).2)
      inspected.height high height (isHeight ▸ List.mem_map_of_mem mine)
  exact ⟨width, height, isWidth, isHeight, widthPositive, by exact_mod_cast widthBound,
    heightPositive, by exact_mod_cast heightBound⟩

theorem inspect_image {inspection : Inspection} (image : policy.mediaType = .image)
    (inspects : inspect engine configuration file policy = .ok inspection) :
    ∃ found, inspection = .image found ∧
      inspectImage configuration.maxImagePixels file.metadata file.decodes = .ok found := by
  unfold inspect at inspects
  rw [image] at inspects
  obtain ⟨found, read, same⟩ := map_eq_ok.mp inspects
  exact ⟨found, same.symm, ofExcept_eq_ok.mp read⟩

theorem inspect_av {inspection : Inspection} (media : policy.mediaType ≠ .image)
    (inspects : inspect engine configuration file policy = .ok inspection) :
    ∃ found, inspection = .av found ∧
      inspectAv engine configuration file.probe file.headerAgain policy.mediaType policy.format
        false = .ok found := by
  unfold inspect at inspects
  split at inspects
  · exact absurd ‹_› media
  · obtain ⟨found, read, same⟩ := map_eq_ok.mp inspects
    exact ⟨found, same.symm, read⟩

theorem soundImage {inspection : Inspection}
    (passes : Passes engine configuration file sizeBytes policy signature inspection upload)
    (describes : Describes file fileIndex sizeBytes policy inspection upload)
    (image : upload.mediaType = .image) :
    ∃ width height pages, SoundImage configuration file upload width height pages := by
  rw [describes.mediaType] at image
  obtain ⟨found, rfl, inspected⟩ := inspect_image image passes.inspects
  obtain ⟨⟨metadata, read, format, width, height, pages⟩, decodes, onePage, positive, pixels⟩ :=
    inspectImage_ok inspected
  refine ⟨found.width, found.height, found.pages, ⟨metadata, read, ?_, width, height, pages⟩,
    decodes, describes.preliminaryMetadata, onePage, positive, pixels⟩
  rw [describes.detectedFormat]
  exact format

theorem soundMedia {inspection : Inspection}
    (passes : Passes engine configuration file sizeBytes policy signature inspection upload)
    (describes : Describes file fileIndex sizeBytes policy inspection upload)
    (media : upload.mediaType ≠ .image) : ∃ document streams duration,
      SoundMedia engine configuration file upload document streams duration := by
  have typed := describes.mediaType
  rw [typed] at media
  obtain ⟨found, rfl, inspected⟩ := inspect_av media passes.inspects
  obtain ⟨document, signature, probed, detected, validated⟩ := inspectAv_ok inspected
  obtain ⟨streams, duration, about⟩ := validateDocument_ok (detect_typed detected) validated
  obtain ⟨count, within, _⟩ := assertSafety_ok passes.safe
  have format : upload.detectedFormat = policy.format :=
    describes.detectedFormat.trans passes.format
  refine ⟨document, streams, duration, probed, about.present, ⟨signature, detected, ?_⟩, ?_, ?_,
    about.audioCodecs, about.videoCodecs, ?_, ?_, about.positive, ?_, ?_, ?_⟩
  · rw [format]
    exact about.family
  · rw [typed]
    exact about.required
  · rw [typed]
    exact about.audioOnly
  · rw [typed]
    exact about.measured
  · rw [describes.preliminaryMetadata, ← about.reported]
    simp [Inspection.preliminaryMetadata]
  · rw [about.reported] at within
    rw [typed]
    simpa [Number.lt] using within
  · rw [← about.count]
    exact count
  · rw [typed]
    exact fun video stream member ofKind =>
      boundedSides about passes.safe video member ofKind

/-- A file that passes its checks is sound. -/
theorem sound_of_passes {inspection : Inspection} (size : file.size = some sizeBytes)
    (passes : Passes engine configuration file sizeBytes policy signature inspection upload)
    (describes : Describes file fileIndex sizeBytes policy inspection upload) :
    Sound engine configuration file upload := by
  obtain ⟨row, stem, suffix, normalized, last, lower⟩ := resolveExtensionPolicy_own passes.extension
  have normal : Normal upload.originalFilename := normal_of_normalized passes.filename
  rw [normal.normalize] at normalized
  have format : upload.detectedFormat = policy.format :=
    describes.detectedFormat.trans passes.format
  have mimeType : upload.detectedMimeType = policy.detectedMimeType :=
    describes.detectedMimeType.trans passes.mimeType
  refine ⟨passes.filename, ⟨stem, suffix, Except.ok.inj normalized, last, ?_⟩,
    ⟨policy, ?_, describes.mediaType, format, mimeType⟩, ?_, ?_, ?_, ?_,
    ⟨signature, passes.detects, ?_⟩, soundImage passes describes, soundMedia passes describes⟩
  · rw [describes.extension]
    exact lower
  · rw [describes.extension]
    exact row
  · have compatible := passes.compatible
    have declared := passes.declared
    unfold isDeclaredMimeCompatible at compatible
    split at compatible
    · rename_i mimeType' same
      rw [same] at declared
      rw [Bool.or_eq_true, decide_eq_true_eq, decide_eq_true_eq] at compatible
      exact ⟨mimeType', declared, compatible.imp_right fun own => own.trans mimeType.symm⟩
    · cases compatible
  · rw [describes.sizeBytes]
    exact size
  · rw [describes.sizeBytes]
    exact passes.nonempty
  · rw [describes.sizeBytes, describes.mediaType]
    exact passes.size
  · rw [format]
    exact family_of_agrees (detect_typed passes.detects) passes.agrees

end File

/-- Every file that the validation accepts is sound, whatever the tools return. -/
theorem validateFiles_sound (engine : Engine) (configuration : UploadConfiguration)
    (files : List UploadedFile) (order : List Nat) (k : Nat) (file : UploadedFile)
    (upload : ValidatedUpload) (submitted : files[k]? = some file)
    (accepted : (validateFiles engine configuration order files).outcomes[k]? =
      some (.ok upload)) :
    upload.fileIndex = k ∧ upload.temporaryPath = file.path ∧
      Sound engine configuration file upload := by
  rw [outcomes_getElem?, submitted, Option.map_some, Option.some.injEq, outcomeOf] at accepted
  split at accepted
  · cases accepted
  · cases accepted
  · rename_i size _ stated
    obtain ⟨other, found, read⟩ := size_of_preflight stated
    rw [submitted, Option.some.injEq] at found
    subst found
    obtain ⟨policy, signature, inspection, passes, describes⟩ := validateFile_ok accepted
    exact ⟨describes.fileIndex, describes.temporaryPath, sound_of_passes read passes describes⟩

theorem accepted_of_isSome {result : MediaValidationResult} {k : Nat}
    (accepted : (result.outcomes[k]?.bind FileValidationOutcome.upload).isSome = true) :
    ∃ upload, result.outcomes[k]? = some (.ok upload) := by
  obtain ⟨upload, same⟩ := Option.isSome_iff_exists.mp accepted
  obtain ⟨outcome, found, uploaded⟩ := Option.bind_eq_some_iff.mp same
  cases outcome with
  | ok upload => exact ⟨upload, found⟩
  | error error => cases uploaded

/-- What ffprobe tells of eight seconds of film with sound. -/
def clipDocument : Value :=
  .obj [(Text.ofString "format", .obj
      [(Text.ofString "format_name", .str (Text.ofString "mov,mp4,m4a,3gp,3g2,mj2")),
        (Text.ofString "duration", .str (Text.ofString "8"))]),
    (Text.ofString "streams", .arr
      [.obj [(Text.ofString "codec_type", .str (Text.ofString "video")),
          (Text.ofString "codec_name", .str (Text.ofString "h264")),
          (Text.ofString "width", .num (.finite 640)),
          (Text.ofString "height", .num (.finite 360))],
        .obj [(Text.ofString "codec_type", .str (Text.ofString "audio")),
          (Text.ofString "codec_name", .str (Text.ofString "aac"))]])]

def clipHeader : Bytes :=
  [0, 0, 0, 0x10, 0x66, 0x74, 0x79, 0x70, 0x69, 0x73, 0x6F, 0x6D, 0, 0, 2, 0]

def sampleClip : UploadedFile where
  path := "/tmp/upload-1"
  originalname := Text.ofString "Clip.MP4"
  mimetype := Text.ofString "application/octet-stream"
  size := some 5
  header := some clipHeader
  metadata := none
  decodes := false
  probe := .document clipDocument
  headerAgain := some clipHeader
  checksum := some "c1"

/-- An image and a video of one request. -/
theorem samplePhoto_sound : ∃ photo clip,
    (validateFiles sampleEngine sampleConfiguration [0, 1] [samplePhoto, sampleClip]).outcomes[0]? =
      some (.ok photo) ∧ Sound sampleEngine sampleConfiguration samplePhoto photo ∧
    (validateFiles sampleEngine sampleConfiguration [0, 1] [samplePhoto, sampleClip]).outcomes[1]? =
      some (.ok clip) ∧ Sound sampleEngine sampleConfiguration sampleClip clip := by
  obtain ⟨photo, first⟩ := @accepted_of_isSome
    (validateFiles sampleEngine sampleConfiguration [0, 1] [samplePhoto, sampleClip]) 0
    (by decide +kernel)
  obtain ⟨clip, second⟩ := @accepted_of_isSome
    (validateFiles sampleEngine sampleConfiguration [0, 1] [samplePhoto, sampleClip]) 1
    (by decide +kernel)
  exact ⟨photo, clip,
    first, (validateFiles_sound sampleEngine sampleConfiguration _ [0, 1] 0 samplePhoto photo rfl
      first).2.2,
    second, (validateFiles_sound sampleEngine sampleConfiguration _ [0, 1] 1 sampleClip clip rfl
      second).2.2⟩

end PostsMedia.Validation
