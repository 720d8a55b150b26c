import PostsMedia.Media.Row

namespace PostsMedia

inductive MediaVariantType
  | optimizedImage
  | imageThumbnail
  | normalizedAudio
  | video360p
  | video720p
  | video1080p
  | videoSource
  | videoThumbnail
  deriving DecidableEq, Repr

/-- One row of the variant table. -/
structure MediaVariant where
  mediaId : String
  processingProfile : String
  variantType : MediaVariantType
  bucket : String
  objectKey : String
  mimeType : String
  format : String
  size : Nat
  checksumSha256 : String
  width : Option Nat := none
  height : Option Nat := none
  bitrateKbps : Option Nat := none
  resolutionLabel : Option String := none

/-- The unique key of the variant table. -/
def MediaVariant.key (variant : MediaVariant) : String × String × MediaVariantType :=
  (variant.mediaId, variant.processingProfile, variant.variantType)

/-- The upsert replaces the row with the same unique key or adds a new row. -/
def upsertVariant (variants : List MediaVariant) (variant : MediaVariant) : List MediaVariant :=
  if variants.any (·.key = variant.key) then
    variants.map fun other => if other.key = variant.key then variant else other
  else variants ++ [variant]

/-- The upserts of one publication, in order. -/
def upsertVariants (variants : List MediaVariant) : List MediaVariant → List MediaVariant
  | [] => variants
  | variant :: rest => upsertVariants (upsertVariant variants variant) rest

/-- Upserts with new and distinct keys add exactly their rows. -/
theorem upsertVariants_append (variants created : List MediaVariant)
    (fresh : ∀ old ∈ variants, ∀ new ∈ created, old.key ≠ new.key)
    (distinct : (created.map MediaVariant.key).Nodup) :
    upsertVariants variants created = variants ++ created := by
  induction created generalizing variants with
  | nil => simp [upsertVariants]
  | cons first rest ih =>
      obtain ⟨absent, distinct⟩ := List.nodup_cons.mp distinct
      have missing : variants.any (·.key = first.key) = false := by
        simp only [List.any_eq_false, decide_eq_true_eq]
        exact fun old member => fresh old member first (List.mem_cons_self ..)
      have added : upsertVariant variants first = variants ++ [first] := by
        simp [upsertVariant, missing]
      rw [upsertVariants, added, ih _ _ distinct, List.append_assoc, List.singleton_append]
      intro old member new later
      rcases List.mem_append.mp member with before | last
      · exact fresh old before new (List.mem_cons_of_mem _ later)
      · rw [List.mem_singleton.mp last]
        intro same
        exact absent (same ▸ List.mem_map_of_mem later)

inductive ProcessingAttemptStatus
  | running
  | completed
  | failed
  | interrupted
  deriving DecidableEq, Repr

/-- One row of the attempt table. -/
structure ProcessingAttempt where
  id : String
  mediaId : String
  generation : Nat
  bullAttemptNumber : Nat
  jobId : String
  processingProfile : String
  status : ProcessingAttemptStatus
  workerInstanceId : Option String := none
  errorCode : Option String := none
  errorMessage : Option String := none
  completedAt : Option Time := none

end PostsMedia
