import PostsMedia.Media.Presenter

namespace PostsMedia.MediaService

structure MediaAccessResponse where
  original : String
  variants : List (String × String)

/-- An assignment to a property of a record. -/
def assign (record : List (String × String)) (name link : String) : List (String × String) :=
  if record.any (·.1 = name) then
    record.map fun field => if field.1 = name then (name, link) else field
  else record ++ [(name, link)]

/-- `MediaService.access` of a media that was found. -/
def access (presignedGet : ObjectRef → Nat → String) (media : Media)
    (variants : List MediaVariant) : MediaAccessResponse where
  original := presignedGet ⟨media.originalBucket, media.originalObjectKey⟩ 900
  variants := variants.foldl (fun record variant => assign record variant.variantType.text
    (presignedGet ⟨variant.bucket, variant.objectKey⟩ 900)) []

theorem variantTypeText_injective : Function.Injective MediaVariantType.text := by
  intro first second same
  cases first <;> cases second <;> first | rfl | simp [MediaVariantType.text] at same

theorem foldl_assign {presignedGet : ObjectRef → Nat → String} {variants : List MediaVariant}
    (distinct : (variants.map (·.variantType)).Nodup) (record : List (String × String))
    (fresh : ∀ variant ∈ variants, ∀ field ∈ record, field.1 ≠ variant.variantType.text) :
    variants.foldl (fun record variant => assign record variant.variantType.text
      (presignedGet ⟨variant.bucket, variant.objectKey⟩ 900)) record =
      record ++ variants.map fun variant => (variant.variantType.text,
        presignedGet ⟨variant.bucket, variant.objectKey⟩ 900) := by
  induction variants generalizing record with
  | nil => simp
  | cons variant rest ih =>
      obtain ⟨absent, distinct⟩ := List.nodup_cons.mp distinct
      have missing : record.any (·.1 = variant.variantType.text) = false := by
        simp only [List.any_eq_false, decide_eq_true_eq]
        exact fresh variant List.mem_cons_self
      rw [List.foldl_cons, assign, missing, if_neg Bool.false_ne_true, ih distinct]
      · simp
      · intro later member field present
        rcases List.mem_append.mp present with old | new
        · exact fresh later (List.mem_cons_of_mem _ member) field old
        · rw [List.mem_singleton.mp new]
          intro same
          have types := variantTypeText_injective same
          exact absent (List.mem_map.mpr ⟨later, member, types.symm⟩)

/-- Variants of different types keep one link each. -/
theorem access_variants {presignedGet : ObjectRef → Nat → String} {media : Media}
    {variants : List MediaVariant} (distinct : (variants.map (·.variantType)).Nodup) :
    (access presignedGet media variants).variants = variants.map fun variant =>
      (variant.variantType.text, presignedGet ⟨variant.bucket, variant.objectKey⟩ 900) :=
  foldl_assign distinct [] fun _ _ _ member => absurd member List.not_mem_nil

end PostsMedia.MediaService
