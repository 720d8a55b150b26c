import Mathlib.Algebra.Order.Ring.Abs
import PostsMedia.Library.Doubles
import PostsMedia.Processing.Artifacts

namespace PostsMedia.Video

open Doubles

open Processing (RenditionLabel)

structure VideoSize where
  width : ℕ
  height : ℕ
  deriving DecidableEq

/-- The number in front of the last character of a label. -/
def targetShort : RenditionLabel → Option ℕ
  | .p360 => some 360
  | .p720 => some 720
  | .p1080 => some 1080
  | .source => none

structure VideoRendition extends VideoSize where
  label : RenditionLabel
  deriving DecidableEq

def even (value : ℚ) : ℕ := max 2 (⌊value / 2⌋₊ * 2)

/-- The quotient and the products are rounded to doubles. -/
def planVideoRenditions (width height : ℕ) : List VideoRendition :=
  let portrait := width < height
  let shortEdge := min width height
  (Processing.planVideoRenditions width height).map fun label =>
    match targetShort label with
    | none => { label, width := even width, height := even height }
    | some targetShort =>
        let scale := toDouble (targetShort / shortEdge)
        if portrait then
          { label, width := even (toDouble (width * scale)),
            height := even (toDouble (height * scale)) }
        else
          { label, width := even (toDouble (width * scale)),
            height := even (toDouble (height * scale)) }

structure VideoCommandOptions where
  inputPath : String
  outputPath : String
  rendition : VideoRendition
  hasAudio : Bool
  crf : Option ℕ := none
  preset : Option String := none
  audioBitrateKbps : Option ℕ := none
  maxFps : Option ℕ := none

/-- The filter chain of one rendition. -/
def videoFilter (width height fps : ℕ) : String :=
  s!"scale={width}:{height}:force_original_aspect_ratio=decrease,fps={fps},format=yuv420p"

def buildVideoRenditionArgs (options : VideoCommandOptions) : List String :=
  let bitrate := options.audioBitrateKbps.getD 128
  ["-y", "-i", options.inputPath, "-map", "0:v:0"] ++
  (if options.hasAudio then ["-map", "0:a:0?"] else []) ++
  ["-vf", videoFilter options.rendition.width options.rendition.height (options.maxFps.getD 30),
    "-c:v", "libx264", "-preset", options.preset.getD "veryfast",
    "-crf", toString (options.crf.getD 23), "-pix_fmt", "yuv420p"] ++
  (if options.hasAudio then ["-c:a", "aac", "-b:a", s!"{bitrate}k"] else ["-an"]) ++
  ["-movflags", "+faststart", options.outputPath]

/-- The video stream of a probed file. -/
structure VideoStream extends VideoSize where
  rotation : Option ℤ

/-- The size after the rotation that the stream asks for. -/
def VideoStream.displaySize (video : VideoStream) : VideoSize :=
  let swapsDisplayAxes : Bool := match video.rotation with
    | some rotation => rotation.natAbs % 180 = 90
    | none => false
  if swapsDisplayAxes then ⟨video.height, video.width⟩ else video.toVideoSize

/-- The transcoding commands of `process`, one for each rendition. -/
def renditionCommands (inputPath workspace : String) (video : VideoStream) (hasAudio : Bool) :
    List (List String) :=
  let size := video.displaySize
  (planVideoRenditions size.width size.height).map fun rendition =>
    let name := rendition.label.text
    buildVideoRenditionArgs
      { inputPath, outputPath := s!"{workspace}/video-{name}.mp4", rendition, hasAudio }

/-- The nearest integer, and of two the one away from zero. -/
def nearest (value : ℚ) : ℕ := ⌊value + 1 / 2⌋₊

/-- ffmpeg keeps the aspect ratio of its source inside the target box. -/
def scaleDecrease (width height : ℕ) (source : VideoSize) : VideoSize where
  width := min width (nearest (height * source.width / source.height))
  height := min height (nearest (width * source.height / source.width))

/-- The filter that the arguments give to ffmpeg. -/
def filterOf : List String → Option String
  | "-y" :: rest => filterOf rest
  | "-an" :: rest => filterOf rest
  | "-vf" :: filter :: _ => some filter
  | _ :: _ :: rest => filterOf rest
  | _ => none

/-- The arguments scale the source to this frame size. -/
def Encodes (args : List String) (source frame : VideoSize) : Prop :=
  ∃ width height fps, filterOf args = some (videoFilter width height fps) ∧
    frame = scaleDecrease width height source

/-- The sizes that libx264 accepts for yuv420p. -/
def VideoSize.Encodable (size : VideoSize) : Prop := Even size.width ∧ Even size.height

end PostsMedia.Video
