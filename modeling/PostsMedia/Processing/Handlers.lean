import PostsMedia.Domain.Value
import PostsMedia.Library.Calls
import PostsMedia.Video.Renditions

namespace PostsMedia.Handlers

open Calls

open Video (VideoRendition VideoStream buildVideoRenditionArgs)

open Processing (HandlerResult ProcessedArtifact RenditionLabel)

/-- One stream that ffprobe prints. Its numbers in texts are still texts. -/
structure ProbeStream where
  codecType : Option String := none
  codecName : Option String := none
  sampleRate : Option Text := none
  channels : Option ℕ := none
  width : Option ℕ := none
  height : Option ℕ := none
  duration : Option Text := none
  sideDataRotations : List (Option ℤ) := []

/-- A probed document with the parts that the processors read. -/
structure ProbeResult where
  document : Json
  formatDuration : Option Text := none
  streams : List ProbeStream := []

structure ImageProcessingOptions where
  maxWidth : ℕ
  maxHeight : ℕ
  thumbnailSize : ℕ
  quality : ℕ
  thumbnailQuality : Option ℕ := none
  maxInputPixels : Option ℕ := none

/-- One pipeline of sharp from a file to a WebP file. -/
structure Pipeline where
  input : String
  limitInputPixels : ℕ
  width : ℕ
  height : ℕ
  quality : ℕ
  output : String

/-- The calls of the processors to their tools and to the file system. -/
inductive Call
  | metadata (path : String) (limitInputPixels : ℕ)
  | toFile (pipeline : Pipeline)
  | probe (path : String)
  | ffmpeg (args : List String) (timeoutMs : Option ℕ)
  | stat (path : String)

/-- What the tools answer, which may depend on all that was called before, and what the script
engine prints for a number. -/
structure Tools where
  metadata : String → List Call → Except String (Option ℕ)
  toFile : Pipeline → List Call → Except String (ℕ × ℕ)
  probe : String → List Call → Except String ProbeResult
  ffmpeg : List String → List Call → Except String Unit
  stat : String → List Call → Except String ℕ
  numberToString : Number → String

abbrev Work := Calls Call String

section Numbers

/-- The lesser of two numbers as `Math.min` tells. -/
def mathMin : Number → Number → Number
  | .nan, _ | _, .nan => .nan
  | x, y => if y.lt x then y else x

/-- The double that `0.1` denotes. -/
def tenth : ℚ := Doubles.toDouble (1 / 10)

/-- The product of a finite duration with `0.1`. Without one it is the start of the video. -/
def thumbnailTimestamp : Number → Number
  | .finite duration => Number.ofRat (duration * tenth)
  | _ => .finite 0

end Numbers

section Commands

variable (numberToString : Number → String)

structure AudioCommandOptions where
  inputPath : String
  outputPath : String
  channels : ℕ
  sampleRate : Number
  bitrateKbps : Option ℕ := none

def buildAudioNormalizeArgs (options : AudioCommandOptions) : List String :=
  let bitrate := options.bitrateKbps.getD 192
  ["-y", "-i", options.inputPath, "-map", "0:a:0", "-vn", "-map_metadata", "-1",
    "-c:a", "libmp3lame", "-b:a", s!"{bitrate}k",
    "-ar", numberToString (mathMin options.sampleRate (.finite 48000)),
    "-ac", toString (min (max options.channels 1) 2), options.outputPath]

def buildVideoThumbnailArgs (inputPath outputPath : String) (timestampSeconds : Number) :
    List String :=
  ["-y", "-ss", numberToString (Number.mathMax (.finite 0) timestampSeconds), "-i", inputPath,
    "-frames:v", "1", "-q:v", "2", outputPath]

end Commands

section Processors

variable (tools : Tools)

def probe (path : String) : Work ProbeResult := invoke (.probe path) (tools.probe path)

def stat (path : String) : Work ℕ := invoke (.stat path) (tools.stat path)

def ffmpeg (args : List String) (timeoutMs : Option ℕ) : Work Unit :=
  invoke (.ffmpeg args timeoutMs) (tools.ffmpeg args)

def toFile (pipeline : Pipeline) : Work (ℕ × ℕ) :=
  invoke (.toFile pipeline) (tools.toFile pipeline)

structure ImageProcessingResult where
  optimizedPath : String
  thumbnailPath : String
  width : ℕ
  height : ℕ
  thumbnailWidth : ℕ
  thumbnailHeight : ℕ

/-- `ImageProcessorService.process`. An image with several pages is animated. -/
def processImage (inputPath optimizedPath thumbnailPath : String)
    (options : ImageProcessingOptions) : Work ImageProcessingResult := do
  let limitInputPixels := options.maxInputPixels.getD 40000000
  let pages ← invoke (.metadata inputPath limitInputPixels) (tools.metadata inputPath)
  if pages.any (1 < ·) then raise "ANIMATED_IMAGE_NOT_ALLOWED"
  else
    let optimized ← toFile tools
      { input := inputPath
        limitInputPixels
        width := options.maxWidth
        height := options.maxHeight
        quality := options.quality
        output := optimizedPath }
    let thumbnail ← toFile tools
      { input := inputPath
        limitInputPixels
        width := options.thumbnailSize
        height := options.thumbnailSize
        quality := options.thumbnailQuality.getD 75
        output := thumbnailPath }
    pure
      { optimizedPath
        thumbnailPath
        width := optimized.1
        height := optimized.2
        thumbnailWidth := thumbnail.1
        thumbnailHeight := thumbnail.2 }

structure AudioProcessingOptions where
  bitrateKbps : Option ℕ := none
  maxSampleRate : Option ℕ := none
  timeoutMs : Option ℕ := none

structure AudioProcessingResult where
  outputPath : String
  input : ProbeResult
  outputSize : ℕ
  durationSeconds : Option Number
  channels : ℕ
  sampleRate : Option Number

def ProbeResult.find (result : ProbeResult) (codecType : String) : Option ProbeStream :=
  result.streams.find? fun stream => stream.codecType = some codecType

/-- `AudioProcessorService.process`. The output is probed again. -/
def processAudio (inputPath outputPath : String) (options : AudioProcessingOptions) :
    Work AudioProcessingResult := do
  let input ← probe tools inputPath
  match input.find "audio" with
  | none => raise "MEDIA_STREAM_NOT_FOUND"
  | some stream =>
      let sampleRate := (stream.sampleRate.map stringToNumber).getD (.finite 48000)
      ffmpeg tools (buildAudioNormalizeArgs tools.numberToString
        { inputPath
          outputPath
          channels := stream.channels.getD 2
          sampleRate := mathMin sampleRate (.finite (options.maxSampleRate.getD 48000))
          bitrateKbps := some (options.bitrateKbps.getD 192) }) options.timeoutMs
      let output ← probe tools outputPath
      match output.find "audio" with
      | none => raise "PROCESSING_OUTPUT_INVALID"
      | some outputStream =>
          if outputStream.codecName ≠ some "mp3" then raise "PROCESSING_OUTPUT_INVALID"
          else
            let size ← stat tools outputPath
            pure
              { outputPath
                input
                outputSize := size
                durationSeconds := output.formatDuration.map stringToNumber
                channels := outputStream.channels.getD 2
                sampleRate := outputStream.sampleRate.map stringToNumber }

inductive OutputLabel
  | rendition (label : RenditionLabel)
  | thumbnail
  deriving DecidableEq

structure VideoOutput where
  path : String
  label : OutputLabel
  size : ℕ

def renditionPath (workspace : String) (label : RenditionLabel) : String :=
  workspace ++ "/video-" ++ label.text ++ ".mp4"

/-- The body of the loop over the renditions. -/
def processRendition (inputPath workspace : String) (hasAudio : Bool) (timeoutMs : Option ℕ)
    (rendition : VideoRendition) : Work VideoOutput := do
  let outputPath := renditionPath workspace rendition.label
  ffmpeg tools (buildVideoRenditionArgs { inputPath, outputPath, rendition, hasAudio }) timeoutMs
  let size ← stat tools outputPath
  pure { path := outputPath, label := .rendition rendition.label, size }

/-- The first side data with a rotation decides. -/
def ProbeStream.video (stream : ProbeStream) : Option VideoStream :=
  match stream.width, stream.height with
  | some width, some height =>
      some { width, height, rotation := stream.sideDataRotations.findSome? id }
  | _, _ => none

/-- `VideoProcessorService.process`. -/
def processVideo (inputPath workspace : String) (timeoutMs : Option ℕ) :
    Work (List VideoOutput) := do
  let source ← probe tools inputPath
  let stream := (source.find "video").getD {}
  match stream.video with
  | none => raise "MEDIA_STREAM_NOT_FOUND"
  | some video =>
      let hasAudio := source.streams.any fun stream => stream.codecType = some "audio"
      let size := video.displaySize
      let outputs ← forEach (processRendition tools inputPath workspace hasAudio timeoutMs)
        (Video.planVideoRenditions size.width size.height)
      let duration := ((source.formatDuration.or stream.duration).map stringToNumber).getD
        (.finite 0)
      let thumbnailPath := workspace ++ "/thumbnail.jpg"
      ffmpeg tools (buildVideoThumbnailArgs tools.numberToString inputPath thumbnailPath
        (thumbnailTimestamp duration)) none
      let size ← stat tools thumbnailPath
      pure (outputs ++ [{ path := thumbnailPath, label := .thumbnail, size }])

end Processors

section Handlers

variable (tools : Tools) (workspace : String)

/-- What a handler of `MediaQueueConsumersService.process` hands to `publish`. -/
structure Published where
  artifacts : List ProcessedArtifact
  metadata : Option Json := none

def imageOptions : ImageProcessingOptions where
  maxWidth := 1920
  maxHeight := 1920
  thumbnailSize := 400
  quality := 82

def handleImage : Work Published := do
  let result ← processImage tools (workspace ++ "/original") (workspace ++ "/optimized.webp")
    (workspace ++ "/thumbnail.webp") imageOptions
  pure
    { artifacts :=
        [{ path := result.optimizedPath
           filename := "optimized.webp"
           variantType := .optimizedImage
           mimeType := "image/webp"
           format := "webp"
           width := some result.width
           height := some result.height },
         { path := result.thumbnailPath
           filename := "thumbnail.webp"
           variantType := .imageThumbnail
           mimeType := "image/webp"
           format := "webp"
           width := some result.thumbnailWidth
           height := some result.thumbnailHeight }] }

def handleAudio : Work Published := do
  let result ← processAudio tools (workspace ++ "/original") (workspace ++ "/audio-192k.mp3") {}
  pure
    { artifacts :=
        [{ path := result.outputPath
           filename := "audio-192k.mp3"
           variantType := .normalizedAudio
           mimeType := "audio/mpeg"
           format := "mp3"
           bitrateKbps := some 192 }]
      metadata := some result.input.document }

/-- Every label but those of the source and of the lesser heights counts as the greatest. -/
def videoArtifact (output : VideoOutput) : ProcessedArtifact :=
  match output.label with
  | .thumbnail =>
      { path := output.path
        filename := "thumbnail.jpg"
        variantType := .videoThumbnail
        mimeType := "image/jpeg"
        format := "jpg" }
  | .rendition label =>
      { path := output.path
        filename := "video-" ++ label.text ++ ".mp4"
        variantType :=
          if label = .source then .videoSource else if label = .p360 then .video360p
          else if label = .p720 then .video720p else .video1080p
        mimeType := "video/mp4"
        format := "mp4"
        resolutionLabel := some label.text }

def handleVideo : Work Published := do
  let outputs ← processVideo tools (workspace ++ "/original") workspace none
  pure { artifacts := outputs.map videoArtifact }

/-- The handler of one queue up to its call of `publish`. -/
def handle : MediaType → Work Published
  | .image => handleImage tools workspace
  | .audio => handleAudio tools workspace
  | .video => handleVideo tools workspace

end Handlers

/-- The input that the arguments name. -/
def inputOf : List String → Option String
  | "-y" :: rest => inputOf rest
  | "-i" :: path :: _ => some path
  | _ :: _ :: rest => inputOf rest
  | _ => none

def Call.reads : Call → List String
  | .metadata path _ | .probe path | .stat path => [path]
  | .toFile pipeline => [pipeline.input]
  | .ffmpeg args _ => (inputOf args).toList

/-- The output is the last argument. -/
def Call.writes : Call → List String
  | .toFile pipeline => [pipeline.output]
  | .ffmpeg args _ => args.getLast?.toList
  | _ => []

/-- The paths that any of the calls writes. -/
def outputs (calls : List Call) : List String := calls.flatMap Call.writes

/-- Each call reads the original or what an earlier call wrote, and writes a path of its own. -/
def Orderly (original : String) : List Call → Prop
  | [] => True
  | call :: before =>
      (∀ path ∈ call.reads, path = original ∨ path ∈ outputs before) ∧
        (∀ path ∈ call.writes, path ≠ original ∧ path ∉ outputs before) ∧
          Orderly original before

/-- The messages that the processors throw themselves. -/
def processorErrors : List String :=
  ["ANIMATED_IMAGE_NOT_ALLOWED", "MEDIA_STREAM_NOT_FOUND", "PROCESSING_OUTPUT_INVALID"]

/-- The latest of the calls was answered with this error. -/
def Failed (tools : Tools) (error : String) : List Call → Prop
  | [] => False
  | .metadata path _ :: before => tools.metadata path before = .error error
  | .toFile pipeline :: before => tools.toFile pipeline before = .error error
  | .probe path :: before => tools.probe path before = .error error
  | .ffmpeg args _ :: before => tools.ffmpeg args before = .error error
  | .stat path :: before => tools.stat path before = .error error

/-- None of the calls failed. -/
def Clean (tools : Tools) : List Call → Prop
  | [] => True
  | call :: before => (∀ error, ¬Failed tools error (call :: before)) ∧ Clean tools before

/-- How a processor fails. It throws an error of its own, or a tool fails and it stops. -/
def Fails (tools : Tools) (original error : String) (calls : List Call) : Prop :=
  Orderly original calls ∧
    (error ∈ processorErrors ∧ Clean tools calls ∨
      Failed tools error calls ∧ Clean tools calls.tail)

/-- What a processor has done when these are its outputs, the latest one first. -/
def Wrote (tools : Tools) (original : String) (written : List String) (calls : List Call) : Prop :=
  Orderly original calls ∧ Clean tools calls ∧ outputs calls = written

section Rules

variable {tools : Tools} {original : String} {written : List String} {α : Type}

theorem ensures_raise {error : String} (own : error ∈ processorErrors)
    (after : α → List Call → Prop) :
    Ensures (Wrote tools original written) (raise error : Work α) after (Fails tools original) :=
  (Ensures.raise error).weaken (fun _ wrote => ⟨wrote.1, .inl ⟨own, wrote.2.1⟩⟩)
    fun _ _ ended => ended

/-- A call that reads what is there and writes what is not. -/
theorem ensures_invoke {call : Call} {answer : List Call → Except String α}
    (reads : ∀ path ∈ call.reads, path = original ∨ path ∈ written)
    (writes : ∀ path ∈ call.writes, path ≠ original ∧ path ∉ written)
    (fails : ∀ before error, Failed tools error (call :: before) ↔ answer before = .error error) :
    Ensures (Wrote tools original written) (invoke call answer)
      (fun _ => Wrote tools original (call.writes ++ written)) (Fails tools original) := by
  have orderly (calls : List Call) (wrote : Wrote tools original written calls) :
      Orderly original (call :: calls) := by
    obtain ⟨orderly, _, rfl⟩ := wrote
    exact ⟨reads, writes, orderly⟩
  apply Ensures.invoke
  · intro calls value wrote answered
    refine ⟨orderly calls wrote, ⟨?_, wrote.2.1⟩, ?_⟩
    · intro error failed
      rw [fails, answered] at failed
      cases failed
    · rw [outputs, List.flatMap_cons, ← outputs, wrote.2.2]
  · intro calls error wrote failed
    exact ⟨orderly calls wrote, .inr ⟨(fails calls error).mpr failed, wrote.2.1⟩⟩

theorem ensures_probe {path : String} (there : path = original ∨ path ∈ written) :
    Ensures (Wrote tools original written) (probe tools path)
      (fun _ => Wrote tools original written) (Fails tools original) := by
  apply ensures_invoke
  · simpa [Call.reads] using there
  · simp [Call.writes]
  · exact fun _ _ => Iff.rfl

theorem ensures_stat {path : String} (there : path = original ∨ path ∈ written) :
    Ensures (Wrote tools original written) (stat tools path)
      (fun _ => Wrote tools original written) (Fails tools original) := by
  apply ensures_invoke
  · simpa [Call.reads] using there
  · simp [Call.writes]
  · exact fun _ _ => Iff.rfl

theorem ensures_toFile {pipeline : Pipeline} (input : pipeline.input = original)
    (different : pipeline.output ≠ original) (new : pipeline.output ∉ written) :
    Ensures (Wrote tools original written) (toFile tools pipeline)
      (fun _ => Wrote tools original (pipeline.output :: written)) (Fails tools original) := by
  apply ensures_invoke
  · simp [Call.reads, input]
  · simp [Call.writes, different, new]
  · exact fun _ _ => Iff.rfl

theorem ensures_ffmpeg {args : List String} {output : String} {timeoutMs : Option ℕ}
    (input : inputOf args = some original) (last : args.getLast? = some output)
    (different : output ≠ original) (new : output ∉ written) :
    Ensures (Wrote tools original written) (ffmpeg tools args timeoutMs)
      (fun _ => Wrote tools original (output :: written)) (Fails tools original) := by
  have rule := @ensures_invoke tools original written Unit (.ffmpeg args timeoutMs)
    (tools.ffmpeg args) (by simp [Call.reads, input])
    (by simp [Call.writes, last, different, new]) fun _ _ => Iff.rfl
  unfold ffmpeg
  simpa [Call.writes, last] using rule

end Rules

section Processors

variable {tools : Tools} {original : String}

theorem ensures_processImage {optimizedPath thumbnailPath : String}
    (options : ImageProcessingOptions) (first : optimizedPath ≠ original)
    (second : thumbnailPath ≠ original) (different : thumbnailPath ≠ optimizedPath) :
    Ensures (Wrote tools original [])
      (processImage tools original optimizedPath thumbnailPath options)
      (fun result calls => (result.optimizedPath = optimizedPath ∧
        result.thumbnailPath = thumbnailPath) ∧
          Wrote tools original [thumbnailPath, optimizedPath] calls)
      (Fails tools original) := by
  have metadata : Ensures (Wrote tools original [])
      (invoke (.metadata original (options.maxInputPixels.getD 40000000))
        (tools.metadata original) : Work _) (fun _ => Wrote tools original [])
      (Fails tools original) := by
    apply ensures_invoke
    · simp [Call.reads]
    · simp [Call.writes]
    · exact fun _ _ => Iff.rfl
  unfold processImage
  refine metadata.bind fun pages => ?_
  split
  · exact ensures_raise (by simp [processorErrors]) _
  · refine Ensures.bind (ensures_toFile rfl first (by simp)) fun optimized => ?_
    refine Ensures.bind (ensures_toFile rfl second (by simpa using different)) fun thumbnail => ?_
    exact fun calls wrote => ⟨⟨rfl, rfl⟩, wrote⟩

theorem ensures_processAudio {outputPath : String} (options : AudioProcessingOptions)
    (different : outputPath ≠ original) :
    Ensures (Wrote tools original []) (processAudio tools original outputPath options)
      (fun result calls => result.outputPath = outputPath ∧ Wrote tools original [outputPath] calls)
      (Fails tools original) := by
  unfold processAudio
  refine Ensures.bind (ensures_probe (.inl rfl)) fun input => ?_
  split
  · exact ensures_raise (by simp [processorErrors]) _
  · refine Ensures.bind (ensures_ffmpeg rfl rfl different (by simp)) fun _ => ?_
    refine Ensures.bind (ensures_probe (.inr (by simp))) fun output => ?_
    split
    · exact ensures_raise (by simp [processorErrors]) _
    · split
      · exact ensures_raise (by simp [processorErrors]) _
      · refine Ensures.bind (ensures_stat (.inr (by simp))) fun size => ?_
        exact fun calls wrote => ⟨rfl, wrote⟩

end Processors

section Videos

variable {tools : Tools} {workspace original : String}

theorem renditionPath_injective (workspace : String) :
    Function.Injective (renditionPath workspace) := by
  intro label label' same
  apply RenditionLabel.filename_injective
  simpa [renditionPath, RenditionLabel.filename, String.append_assoc] using same

/-- The arguments of a rendition name its input and its output. -/
theorem inputOf_rendition (options : Video.VideoCommandOptions) :
    inputOf (buildVideoRenditionArgs options) = some options.inputPath := rfl

theorem getLast_rendition (options : Video.VideoCommandOptions) :
    (buildVideoRenditionArgs options).getLast? = some options.outputPath := by
  rw [buildVideoRenditionArgs, List.getLast?_append]
  rfl

/-- What the loop has produced for these renditions. -/
def Rendered (tools : Tools) (workspace original : String) (done : List VideoRendition)
    (results : List VideoOutput) (calls : List Call) : Prop :=
  results.map (fun output => (output.path, output.label)) =
      done.map (fun rendition => (renditionPath workspace rendition.label,
        OutputLabel.rendition rendition.label)) ∧
    Wrote tools original
      (done.map fun rendition => renditionPath workspace rendition.label).reverse calls

theorem ensures_renditions {renditions : List VideoRendition} (hasAudio : Bool)
    (timeoutMs : Option ℕ) (distinct : (renditions.map (·.label)).Nodup)
    (elsewhere : ∀ label, renditionPath workspace label ≠ original) :
    Ensures (Wrote tools original [])
      (forEach (processRendition tools original workspace hasAudio timeoutMs) renditions)
      (Rendered tools workspace original renditions) (Fails tools original) := by
  have start : Ensures (Rendered tools workspace original [] [])
      (forEach (processRendition tools original workspace hasAudio timeoutMs) renditions)
      (Rendered tools workspace original renditions) (Fails tools original) := by
    apply Ensures.forEach
    intro done rendition rest results split
    apply Ensures.assuming
    intro same
    have new : renditionPath workspace rendition.label ∉
        (done.map fun rendition => renditionPath workspace rendition.label).reverse := by
      intro member
      obtain ⟨earlier, before, path⟩ := List.mem_map.mp (List.mem_reverse.mp member)
      rw [split, List.map_append, List.nodup_append] at distinct
      refine distinct.2.2 _ (List.mem_map_of_mem before) _ List.mem_cons_self ?_
      exact renditionPath_injective workspace path
    unfold processRendition
    refine Ensures.bind
      (ensures_ffmpeg (inputOf_rendition _) (getLast_rendition _) (elsewhere _) new) fun _ => ?_
    refine Ensures.bind (ensures_stat (.inr List.mem_cons_self)) fun size => ?_
    intro calls wrote
    refine ⟨?_, ?_⟩
    · rw [List.map_append, List.map_append, same]
      rfl
    · rw [List.map_append, List.reverse_append]
      exact wrote
  exact start.weaken (fun calls wrote => ⟨rfl, wrote⟩) fun _ _ rendered => rendered

theorem labels_planVideoRenditions (width height : ℕ) :
    (Video.planVideoRenditions width height).map (·.label) =
      Processing.planVideoRenditions width height := by
  rw [Video.planVideoRenditions, List.map_map]
  conv_rhs => rw [← List.map_id (Processing.planVideoRenditions width height)]
  apply List.map_congr_left
  intro label _
  simp only [Function.comp_apply, id_eq]
  split
  · rfl
  · split <;> rfl

/-- Different names are different places in a workspace. -/
theorem place_ne {name name' : String} (different : name ≠ name') :
    workspace ++ name ≠ workspace ++ name' :=
  fun same => different ((String.append_right_inj workspace).mp same)

theorem renditionPath_ne (label : RenditionLabel) {name : String}
    (different : "/video-" ++ label.text ++ ".mp4" ≠ name) :
    renditionPath workspace label ≠ workspace ++ name := by
  have path : renditionPath workspace label =
      workspace ++ ("/video-" ++ label.text ++ ".mp4") := by
    simp only [renditionPath, String.append_assoc]
  rw [path]
  exact place_ne different

/-- The paths and labels of the outputs of a video of this size. -/
def videoOutputs (workspace : String) (width height : ℕ) : List (String × OutputLabel) :=
  (Processing.planVideoRenditions width height).map (fun label =>
    (renditionPath workspace label, .rendition label)) ++
      [(workspace ++ "/thumbnail.jpg", .thumbnail)]

theorem ensures_processVideo (timeoutMs : Option ℕ) :
    Ensures (Wrote tools (workspace ++ "/original") [])
      (processVideo tools (workspace ++ "/original") workspace timeoutMs)
      (fun results calls => ∃ width height,
        results.map (fun output => (output.path, output.label)) =
            videoOutputs workspace width height ∧
          Wrote tools (workspace ++ "/original")
            ((videoOutputs workspace width height).map Prod.fst).reverse calls)
      (Fails tools (workspace ++ "/original")) := by
  unfold processVideo
  refine Ensures.bind (ensures_probe (.inl rfl)) fun source => ?_
  dsimp only
  split
  · exact ensures_raise (by simp [processorErrors]) _
  · rename_i video _
    have labels := labels_planVideoRenditions video.displaySize.width video.displaySize.height
    have distinct := Processing.planVideoRenditions_nodup video.displaySize.width
      video.displaySize.height
    refine Ensures.bind (ensures_renditions _ timeoutMs (labels ▸ distinct)
      fun label => renditionPath_ne label (by cases label <;> decide)) fun results => ?_
    apply Ensures.assuming
    intro same
    have new : workspace ++ "/thumbnail.jpg" ∉
        ((Video.planVideoRenditions video.displaySize.width video.displaySize.height).map
          fun rendition => renditionPath workspace rendition.label).reverse := by
      intro member
      obtain ⟨rendition, _, path⟩ := List.mem_map.mp (List.mem_reverse.mp member)
      exact renditionPath_ne rendition.label (by cases rendition.label <;> decide) path
    refine Ensures.bind (ensures_ffmpeg rfl rfl (place_ne (by decide)) new) fun _ => ?_
    refine Ensures.bind (ensures_stat (.inr List.mem_cons_self)) fun size => ?_
    intro calls wrote
    refine ⟨video.displaySize.width, video.displaySize.height, ?_, ?_⟩
    · rw [List.map_append, same, videoOutputs, ← labels, List.map_map]
      rfl
    · rw [videoOutputs, ← labels, List.map_append, List.map_map, List.map_map,
        List.reverse_append]
      exact wrote

end Videos

/-- The queue whose handler has such a result. -/
def mediaTypeOf : HandlerResult → MediaType
  | .image .. => .image
  | .audio _ => .audio
  | .video .. => .video

/-- What a handler publishes is the work of one result. No call failed, and all of it was
written. -/
def Handled (tools : Tools) (workspace : String) (mediaType : MediaType) (published : Published)
    (calls : List Call) : Prop :=
  Orderly (workspace ++ "/original") calls ∧ Clean tools calls ∧
    (∃ result, mediaTypeOf result = mediaType ∧
      published = ⟨result.artifacts workspace, result.metadata⟩) ∧
    ∀ artifact ∈ published.artifacts, artifact.path ∈ outputs calls

section Refinement

variable {tools : Tools} {workspace : String}

/-- The size of an output does not bear on its artifact. -/
theorem videoArtifact_video (label : RenditionLabel) (size : ℕ) :
    videoArtifact ⟨renditionPath workspace label, .rendition label, size⟩ =
      Processing.renditionArtifact workspace label := by
  have path : renditionPath workspace label = workspace ++ "/" ++ label.filename := by
    simp only [renditionPath, RenditionLabel.filename, String.append_assoc]
    cases label <;> rfl
  cases label <;> simp [videoArtifact, Processing.renditionArtifact, path,
    RenditionLabel.filename, RenditionLabel.variantType]

theorem map_videoArtifact {results : List VideoOutput} {width height : ℕ}
    (same : results.map (fun output => (output.path, output.label)) =
      videoOutputs workspace width height) :
    results.map videoArtifact = (HandlerResult.video width height).artifacts workspace := by
  have sizeless : results.map videoArtifact =
      (results.map fun output => (output.path, output.label)).map
        fun output => videoArtifact ⟨output.1, output.2, 0⟩ := by
    rw [List.map_map]
    rfl
  have each (label : RenditionLabel) := @videoArtifact_video workspace label 0
  rw [sizeless, same, videoOutputs, HandlerResult.artifacts, List.map_append, List.map_map]
  simp only [Function.comp_def, each, List.map_singleton]
  rfl

theorem ensures_handle (mediaType : MediaType) :
    Ensures (Wrote tools (workspace ++ "/original") []) (handle tools workspace mediaType)
      (Handled tools workspace mediaType) (Fails tools (workspace ++ "/original")) := by
  cases mediaType with
  | image =>
      refine Ensures.bind (ensures_processImage imageOptions (place_ne (by decide))
        (place_ne (by decide)) (place_ne (by decide))) fun result => ?_
      rintro calls ⟨⟨optimized, thumbnail⟩, orderly, clean, written⟩
      refine ⟨orderly, clean, ⟨.image result.width result.height result.thumbnailWidth
        result.thumbnailHeight, rfl, ?_⟩, ?_⟩
      · rw [optimized, thumbnail]
        rfl
      · simp [optimized, thumbnail, written]
  | audio =>
      refine Ensures.bind (ensures_processAudio {} (place_ne (by decide))) fun result => ?_
      rintro calls ⟨output, orderly, clean, written⟩
      refine ⟨orderly, clean, ⟨.audio result.input.document, rfl, ?_⟩, ?_⟩
      · rw [output]
        rfl
      · simp [output, written]
  | video =>
      refine Ensures.bind (ensures_processVideo none) fun results => ?_
      rintro calls ⟨width, height, same, orderly, clean, written⟩
      have artifacts := map_videoArtifact same
      refine ⟨orderly, clean, ⟨.video width height, rfl, by rw [artifacts]; rfl⟩, ?_⟩
      intro artifact member
      obtain ⟨output, inside, rfl⟩ := List.mem_map.mp member
      rw [written, List.mem_reverse, ← same, List.map_map]
      have path : (videoArtifact output).path = output.path := by
        unfold videoArtifact
        split <;> rfl
      rw [path]
      exact List.mem_map_of_mem inside

end Refinement

section Exactness

/-- The tools of a run in which nothing fails. -/
def smoothTools (sizes : ℕ → ℕ × ℕ) (result : ProbeResult) : Tools where
  metadata _ _ := .ok none
  toFile pipeline _ := .ok (sizes pipeline.width)
  probe _ _ := .ok result
  ffmpeg _ _ := .ok ()
  stat _ _ := .ok 1
  numberToString _ := "0"

theorem forEach_smooth {α β : Type} {body : α → Work β} {f : α → β}
    (smooth : ∀ item calls, ∃ later, body item calls = (.ok (f item), later)) (items : List α) :
    ∀ calls, ∃ later, forEach body items calls = (.ok (items.map f), later) := by
  induction items with
  | nil => exact fun calls => ⟨calls, rfl⟩
  | cons item items ih =>
      intro calls
      obtain ⟨middle, first⟩ := smooth item calls
      obtain ⟨later, rest⟩ := ih middle
      exact ⟨later, (bind_ok first).trans (bind_ok rest)⟩

/-- A probed video of one size, without sound. -/
def plainVideo (width height : ℕ) : ProbeResult where
  document := .null
  streams := [{ codecType := some "video", width := some width, height := some height }]

def smoothVideo (workspace : String) (rendition : VideoRendition) : VideoOutput where
  path := renditionPath workspace rendition.label
  label := .rendition rendition.label
  size := 1

theorem handle_smoothVideo (workspace : String) (width height : ℕ) : ∃ calls,
    handle (smoothTools (fun _ => (0, 0)) (plainVideo width height)) workspace .video [] =
      (.ok ⟨(HandlerResult.video width height).artifacts workspace, none⟩, calls) := by
  let tools := smoothTools (fun _ => (0, 0)) (plainVideo width height)
  obtain ⟨later, loop⟩ := @forEach_smooth _ _
    (processRendition tools (workspace ++ "/original") workspace false none)
    (smoothVideo workspace) (fun _ _ => ⟨_, rfl⟩) (Video.planVideoRenditions width height)
    [.probe (workspace ++ "/original")]
  let results : List VideoOutput :=
    (Video.planVideoRenditions width height).map (smoothVideo workspace) ++
      [⟨workspace ++ "/thumbnail.jpg", .thumbnail, 1⟩]
  have same : results.map (fun output => (output.path, output.label)) =
      videoOutputs workspace width height := by
    rw [videoOutputs, ← labels_planVideoRenditions, List.map_append, List.map_map, List.map_map]
    rfl
  rw [← map_videoArtifact same]
  have ran : ∃ calls, processVideo tools (workspace ++ "/original") workspace none [] =
      (.ok results, calls) :=
    ⟨_, (bind_ok rfl).trans ((bind_ok loop).trans rfl)⟩
  obtain ⟨calls, returned⟩ := ran
  exact ⟨calls, bind_ok returned⟩

/-- Every result is that of some run. -/
theorem handle_smooth (workspace : String) (result : HandlerResult) : ∃ tools calls,
    handle tools workspace (mediaTypeOf result) [] =
      (.ok ⟨result.artifacts workspace, result.metadata⟩, calls) := by
  cases result with
  | image width height thumbnailWidth thumbnailHeight =>
      let sizes (bound : ℕ) : ℕ × ℕ :=
        if bound = 1920 then (width, height) else (thumbnailWidth, thumbnailHeight)
      exact ⟨smoothTools sizes { document := .null }, _, rfl⟩
  | audio input =>
      let probed : ProbeResult :=
        { document := input
          streams := [{ codecType := some "audio", codecName := some "mp3" }] }
      exact ⟨smoothTools (fun _ => (0, 0)) probed, _, rfl⟩
  | video width height =>
      obtain ⟨calls, ran⟩ := handle_smoothVideo workspace width height
      exact ⟨_, calls, ran⟩

end Exactness

/-- What the three handlers do with any tools. -/
structure HandlersLaw : Prop where
  /-- What is published is one of the results, made without a failure and wholly written. -/
  sound : ∀ tools workspace mediaType published calls,
    handle tools workspace mediaType [] = (.ok published, calls) →
      Handled tools workspace mediaType published calls
  /-- A throw of a handler is its own or that of its latest call, the first one that failed. The
  original is not written then either, nor any path twice. -/
  failing : ∀ tools workspace mediaType error calls,
    handle tools workspace mediaType [] = (.error error, calls) →
      Fails tools (workspace ++ "/original") error calls
  /-- Every result is published in some run. -/
  complete : ∀ workspace (result : HandlerResult), ∃ tools calls,
    handle tools workspace (mediaTypeOf result) [] =
      (.ok ⟨result.artifacts workspace, result.metadata⟩, calls)

theorem handlers_law : HandlersLaw where
  sound tools workspace mediaType published calls returned := by
    have ends := @ensures_handle tools workspace mediaType []
      ⟨trivial, trivial, rfl⟩
    rwa [returned] at ends
  failing tools workspace mediaType error calls thrown := by
    have ends := @ensures_handle tools workspace mediaType []
      ⟨trivial, trivial, rfl⟩
    rwa [thrown] at ends
  complete := handle_smooth

end PostsMedia.Handlers
