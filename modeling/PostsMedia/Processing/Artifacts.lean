import Mathlib.Data.List.Nodup
import PostsMedia.Media.Variant
import PostsMedia.Storage.ObjectKey

namespace PostsMedia

namespace Processing

/-- A file that a handler hands to the publication. -/
structure ProcessedArtifact where
  path : String
  filename : String
  variantType : MediaVariantType
  mimeType : String
  format : String
  width : Option Nat := none
  height : Option Nat := none
  bitrateKbps : Option Nat := none
  resolutionLabel : Option String := none

inductive RenditionLabel
  | p360
  | p720
  | p1080
  | source
  deriving DecidableEq, Repr

def RenditionLabel.text : RenditionLabel → String
  | .p360 => "360p"
  | .p720 => "720p"
  | .p1080 => "1080p"
  | .source => "source"

/-- The labels of the planned renditions. They never scale a video up. -/
def planVideoRenditions (width height : Nat) : List RenditionLabel :=
  let shortEdge := min width height
  if shortEdge < 360 then [.source]
  else if shortEdge < 720 then [.p360]
  else if shortEdge < 1080 then [.p360, .p720]
  else [.p360, .p720, .p1080]

/-- The plan names no label twice. -/
theorem planVideoRenditions_nodup (width height : Nat) :
    (planVideoRenditions width height).Nodup := by
  simp only [planVideoRenditions]
  repeat' split
  all_goals decide

def RenditionLabel.variantType : RenditionLabel → MediaVariantType
  | .source => .videoSource
  | .p360 => .video360p
  | .p720 => .video720p
  | .p1080 => .video1080p

def RenditionLabel.filename (label : RenditionLabel) : String := "video-" ++ label.text ++ ".mp4"

theorem RenditionLabel.variantType_injective : Function.Injective RenditionLabel.variantType := by
  intro label label' same
  cases label <;> cases label' <;> first | rfl | cases same

theorem RenditionLabel.filename_injective : Function.Injective RenditionLabel.filename := by
  intro label label' same
  cases label <;> cases label' <;> first | rfl | exact absurd same (by decide)

/-- What a handler learns from its tools about one original. -/
inductive HandlerResult
  | image (width height thumbnailWidth thumbnailHeight : Nat)
  | audio (input : Json)
  | video (width height : Nat)

/-- One rendition of a video. -/
def renditionArtifact (workspace : String) (label : RenditionLabel) : ProcessedArtifact where
  path := workspace ++ "/" ++ label.filename
  filename := label.filename
  variantType := label.variantType
  mimeType := "video/mp4"
  format := "mp4"
  resolutionLabel := some label.text

def videoThumbnail (workspace : String) : ProcessedArtifact where
  path := workspace ++ "/thumbnail.jpg"
  filename := "thumbnail.jpg"
  variantType := .videoThumbnail
  mimeType := "image/jpeg"
  format := "jpg"

/-- The artifacts of the three handlers. -/
def HandlerResult.artifacts (workspace : String) : HandlerResult → List ProcessedArtifact
  | .image width height thumbnailWidth thumbnailHeight =>
      [{ path := workspace ++ "/optimized.webp"
         filename := "optimized.webp"
         variantType := .optimizedImage
         mimeType := "image/webp"
         format := "webp"
         width := some width
         height := some height },
       { path := workspace ++ "/thumbnail.webp"
         filename := "thumbnail.webp"
         variantType := .imageThumbnail
         mimeType := "image/webp"
         format := "webp"
         width := some thumbnailWidth
         height := some thumbnailHeight }]
  | .audio _ =>
      [{ path := workspace ++ "/audio-192k.mp3"
         filename := "audio-192k.mp3"
         variantType := .normalizedAudio
         mimeType := "audio/mpeg"
         format := "mp3"
         bitrateKbps := some 192 }]
  | .video width height =>
      (planVideoRenditions width height).map (renditionArtifact workspace) ++
        [videoThumbnail workspace]

/-- Only the audio handler stores metadata. -/
def HandlerResult.metadata : HandlerResult → Option Json
  | .audio input => some input
  | _ => none

/-- No handler produces a variant type twice. -/
theorem HandlerResult.variantTypes_nodup (workspace : String) (result : HandlerResult) :
    ((result.artifacts workspace).map (·.variantType)).Nodup := by
  cases result with
  | image => simp [artifacts]
  | audio => simp [artifacts]
  | video width height =>
      have types : ((HandlerResult.video width height).artifacts workspace).map (·.variantType) =
          (planVideoRenditions width height).map RenditionLabel.variantType ++
            [.videoThumbnail] := by
        simp [artifacts, renditionArtifact, videoThumbnail, Function.comp_def]
      rw [types, List.nodup_append]
      refine ⟨List.Nodup.map RenditionLabel.variantType_injective
        (planVideoRenditions_nodup width height), List.nodup_singleton _, ?_⟩
      intro variantType member thumbnail only
      obtain ⟨label, _, rfl⟩ := List.mem_map.mp member
      rw [List.mem_singleton.mp only]
      cases label <;> decide

/-- No handler writes a filename twice. -/
theorem HandlerResult.filenames_nodup (workspace : String) (result : HandlerResult) :
    ((result.artifacts workspace).map (·.filename)).Nodup := by
  cases result with
  | image => simp [artifacts]
  | audio => simp [artifacts]
  | video width height =>
      have names : ((HandlerResult.video width height).artifacts workspace).map (·.filename) =
          (planVideoRenditions width height).map RenditionLabel.filename ++ ["thumbnail.jpg"] := by
        simp [artifacts, renditionArtifact, videoThumbnail, Function.comp_def]
      rw [names, List.nodup_append]
      refine ⟨List.Nodup.map RenditionLabel.filename_injective
        (planVideoRenditions_nodup width height), List.nodup_singleton _, ?_⟩
      intro filename member thumbnail only
      obtain ⟨label, _, rfl⟩ := List.mem_map.mp member
      rw [List.mem_singleton.mp only]
      cases label <;> decide

end Processing

end PostsMedia
