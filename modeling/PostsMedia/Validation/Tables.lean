import PostsMedia.Validation.Fingerprint
import PostsMedia.Validation.Soundness

namespace PostsMedia.Validation

open Fingerprint

variable {engine : Engine} {name raw : Text}

/-- Every object has a property of this name. -/
def Inherited (name : Text) : Prop := ∃ inherited ∈ objectPrototype, Text.ofString inherited = name

instance (name : Text) : Decidable (Inherited name) :=
  inferInstanceAs (Decidable (∃ inherited ∈ objectPrototype, _ = _))

/-- A normalized name with a stem and, behind its last dot, an extension. -/
structure Dotted (raw stem extension : Text) : Prop where
  normalized : normalizeOriginalFilename raw = .ok (stem ++ 0x2E :: extension)
  stem_ne : stem ≠ []
  extension_ne : extension ≠ []
  undotted : 0x2E ∉ extension

/-- The name has this row's extension. -/
def Listed (engine : Engine) (raw : Text) (row : ExtensionPolicy) : Prop :=
  ∃ stem extension key, Dotted raw stem extension ∧ (key, row) ∈ policies ∧
    Text.ofString key = engine.toLowerCase extension

/-- The declared type up to its parameters. -/
def declaredType (engine : Engine) (declared : Text) : Text :=
  engine.toLowerCase (Text.trim (declared.takeWhile (· ≠ 0x3B)))

/-- The declared type is an alias of this type. -/
def Aliased (engine : Engine) (declared : Text) (canonical : String) : Prop :=
  ∃ key, (key, canonical) ∈ aliases ∧ Text.ofString key = declaredType engine declared

/-- The table of extensions is exact for a name: a listed extension gives its row, and every other
name is refused. -/
structure ExtensionExact (engine : Engine) (raw : Text) : Prop where
  listed : ∀ row, Listed engine raw row → resolveExtensionPolicy engine raw = .ok (.own row)
  unlisted : (¬ ∃ row, Listed engine raw row) →
    ∃ error, resolveExtensionPolicy engine raw = .error error ∧
      error.code ∈ ["INVALID_ORIGINAL_FILENAME", "MISSING_EXTENSION", "UNSUPPORTED_EXTENSION"]

/-- The table of types is exact for a declared type: an alias gives a type that is its own, and
every other one is refused. -/
structure MimeExact (engine : Engine) (declared : Text) : Prop where
  aliased : ∀ canonical, Aliased engine declared canonical →
    canonicalizeDeclaredMimeType engine declared = .ok (.own canonical) ∧
      canonicalizeDeclaredMimeType engine (Text.ofString canonical) = .ok (.own canonical)
  unaliased : (¬ ∃ canonical, Aliased engine declared canonical) →
    ∃ error, canonicalizeDeclaredMimeType engine declared = .error error ∧
      error.code = "UNSUPPORTED_MIME_TYPE"

section Lookup

variable {α : Type} {table : List (String × α)} {entry : String × α}

theorem property_of_mem (distinct : (table.map fun entry => Text.ofString entry.1).Nodup)
    (member : entry ∈ table) : property table (Text.ofString entry.1) = some (.own entry.2) := by
  induction table with
  | nil => cases member
  | cons first rest ih =>
      rw [List.map_cons, List.nodup_cons] at distinct
      rw [property]
      rcases List.mem_cons.mp member with rfl | later
      · rw [List.find?_cons_of_pos (by simp)]
      · have apart : Text.ofString first.1 ≠ Text.ofString entry.1 := by
          intro same
          apply distinct.1
          rw [same]
          exact List.mem_map_of_mem later
        rw [List.find?_cons_of_neg (by simpa using apart)]
        exact ih distinct.2 later

/-- A name that is no key is looked up in what every object inherits. -/
theorem property_of_not_mem (absent : ∀ entry ∈ table, Text.ofString entry.1 ≠ name) :
    property table name = if Inherited name then some (.inherited name) else none := by
  have missing : table.find? (fun entry => Text.ofString entry.1 = name) = none := by
    rw [List.find?_eq_none]
    intro entry member
    simpa using absent entry member
  have inherits : (objectPrototype.any fun inherited => Text.ofString inherited = name) = true ↔
      Inherited name := by simp [Inherited, List.any_eq_true]
  rw [property, missing]
  simp only [inherits]

end Lookup

theorem policies_distinct : (policies.map fun entry => Text.ofString entry.1).Nodup := by
  decide +kernel

theorem aliases_distinct : (aliases.map fun entry => Text.ofString entry.1).Nodup := by
  decide +kernel

/-- No key of the tables is inherited. -/
theorem policies_own : ∀ entry ∈ policies, ¬ Inherited (Text.ofString entry.1) := by
  decide +kernel

theorem aliases_own : ∀ entry ∈ aliases, ¬ Inherited (Text.ofString entry.1) := by
  decide +kernel

section Extensions

variable {stem extension : Text}

theorem lastIndexOf_append (stem : Text) (undotted : 0x2E ∉ extension) :
    lastIndexOf 0x2E (stem ++ 0x2E :: extension) = some stem.length := by
  have first : (stem ++ 0x2E :: extension).reverse.idxOf 0x2E = extension.length := by
    rw [List.reverse_append, List.reverse_cons, List.append_assoc,
      List.idxOf_append_of_notMem (by simpa using undotted)]
    simp
  rw [lastIndexOf, if_pos (by simp), first]
  simp

theorem resolve_dotted (engine : Engine) (dotted : Dotted raw stem extension) :
    resolveExtensionPolicy engine raw =
      match property policies (engine.toLowerCase extension) with
      | none => .error (unsupportedExtension (engine.toLowerCase extension))
      | some resolved => .ok resolved := by
  obtain ⟨normalized, stem_ne, extension_ne, undotted⟩ := dotted
  have start := List.length_pos_iff.mpr stem_ne
  have stop := List.length_pos_iff.mpr extension_ne
  have inner : stem.length ≠ (stem ++ 0x2E :: extension).length - 1 := by
    rw [List.length_append, List.length_cons]
    omega
  have suffix : (stem ++ 0x2E :: extension).drop (stem.length + 1) = extension := by simp
  rw [resolveExtensionPolicy, normalized, Except.bind, lastIndexOf_append _ undotted]
  obtain ⟨position, length⟩ : ∃ position, stem.length = position + 1 :=
    ⟨stem.length - 1, by omega⟩
  rw [length] at inner suffix ⊢
  refine (if_neg inner).trans ?_
  cases looked : property policies (engine.toLowerCase extension) <;>
    simp only [suffix, looked]

/-- Without a stem, a dot and an extension a name is refused. -/
theorem resolve_undotted (engine : Engine) (plain : ¬ ∃ stem extension, Dotted raw stem extension) :
    ∃ error, resolveExtensionPolicy engine raw = .error error ∧
      error.code ∈ ["INVALID_ORIGINAL_FILENAME", "MISSING_EXTENSION"] := by
  rw [resolveExtensionPolicy]
  cases normalized : normalizeOriginalFilename raw with
  | error error =>
      refine ⟨error, rfl, ?_⟩
      rw [normalize_error normalized]
      decide
  | ok text =>
      refine ⟨missingExtension, ?_, by decide⟩
      rw [Except.bind]
      cases dot : lastIndexOf 0x2E text with
      | none => rfl
      | some index =>
          obtain ⟨split, undotted⟩ := lastIndexOf_split dot
          cases index with
          | zero => rfl
          | succ index =>
              have inside : index + 1 < text.length := by
                have lengths := congrArg List.length split
                simp only [List.length_append, List.length_take, List.length_cons,
                  List.length_drop] at lengths
                omega
              apply if_pos
              by_contra inner
              apply plain
              refine ⟨text.take (index + 1), text.drop (index + 1 + 1), ?_, ?_, ?_, undotted⟩
              · rw [← split, normalized]
              · apply List.ne_nil_of_length_pos
                rw [List.length_take]
                omega
              · apply List.ne_nil_of_length_pos
                rw [List.length_drop]
                omega

/-- A name has one stem and one extension. -/
theorem Dotted.unique {stem' extension' : Text} (dotted : Dotted raw stem extension)
    (other : Dotted raw stem' extension') : extension = extension' := by
  have same : stem ++ 0x2E :: extension = stem' ++ 0x2E :: extension' :=
    Except.ok.inj (dotted.normalized.symm.trans other.normalized)
  have stems : stem.length = stem'.length := by
    have index := lastIndexOf_append stem dotted.undotted
    rw [same, lastIndexOf_append _ other.undotted] at index
    exact (Option.some.inj index).symm
  exact (List.cons.inj (List.append_inj same stems).2).2

/-- The table of extensions is exact unless the extension is an inherited name. -/
theorem extensionExact_iff (engine : Engine) (raw : Text) :
    ExtensionExact engine raw ↔ ∀ stem extension, Dotted raw stem extension →
      ¬ Inherited (engine.toLowerCase extension) := by
  constructor
  · rintro ⟨_, unlisted⟩ stem extension dotted inherited
    have absent : ∀ entry ∈ policies, Text.ofString entry.1 ≠ engine.toLowerCase extension := by
      intro entry member same
      exact policies_own entry member (same ▸ inherited)
    have resolved := resolve_dotted engine dotted
    rw [property_of_not_mem absent, if_pos inherited] at resolved
    obtain ⟨error, refused, _⟩ := unlisted (by
      rintro ⟨row, stem', extension', key, dotted', member, same⟩
      rw [dotted'.unique dotted] at same
      exact absent _ member same)
    rw [resolved] at refused
    cases refused
  · intro plain
    constructor
    · rintro row ⟨stem, extension, key, dotted, member, same⟩
      rw [resolve_dotted engine dotted, ← same, property_of_mem policies_distinct member]
    · intro unlisted
      by_cases some : ∃ stem extension, Dotted raw stem extension
      · obtain ⟨stem, extension, dotted⟩ := some
        refine ⟨unsupportedExtension (engine.toLowerCase extension), ?_, ?_⟩
        swap
        · simp [unsupportedExtension]
        rw [resolve_dotted engine dotted, property_of_not_mem, if_neg (plain stem extension dotted)]
        intro entry member same
        exact unlisted ⟨entry.2, stem, extension, entry.1, dotted, member, same⟩
      · obtain ⟨error, refused, code⟩ := resolve_undotted engine some
        refine ⟨error, refused, ?_⟩
        rcases List.mem_cons.mp code with same | last
        · rw [same]
          decide
        · rw [List.mem_singleton.mp last]
          decide

end Extensions

/-- The table of types is exact unless the declared type is an inherited name. -/
theorem mimeExact_iff (engine : Engine) (declared : Text) :
    MimeExact engine declared ↔ ¬ Inherited (declaredType engine declared) := by
  have looked {canonical : Property String}
      (found : property aliases (declaredType engine declared) = some canonical) :
      canonicalizeDeclaredMimeType engine declared = .ok canonical := by
    unfold declaredType at found
    simp only [canonicalizeDeclaredMimeType, found]
  have missed (absent : property aliases (declaredType engine declared) = none) :
      canonicalizeDeclaredMimeType engine declared =
        .error (unsupportedMimeType (declaredType engine declared)) := by
    unfold declaredType at absent ⊢
    simp only [canonicalizeDeclaredMimeType, absent]
  constructor
  · rintro ⟨_, unaliased⟩ inherited
    have absent : ∀ entry ∈ aliases, Text.ofString entry.1 ≠ declaredType engine declared := by
      intro entry member same
      exact aliases_own entry member (same ▸ inherited)
    obtain ⟨error, refused, _⟩ := unaliased (by
      rintro ⟨canonical, key, member, same⟩
      exact absent _ member same)
    rw [looked (by rw [property_of_not_mem absent, if_pos inherited])] at refused
    cases refused
  · intro plain
    constructor
    · rintro canonical ⟨key, member, same⟩
      have own := @canonicalize_canonical engine (key, canonical) member
      refine ⟨looked ?_, own⟩
      rw [← same, property_of_mem aliases_distinct member]
    · intro unaliased
      refine ⟨unsupportedMimeType (declaredType engine declared), missed ?_, rfl⟩
      rw [property_of_not_mem, if_neg plain]
      intro entry member same
      exact unaliased ⟨entry.2, entry.1, member, same⟩

/-- Both tables are exact exactly for the names that no object inherits. -/
theorem tables_exact_iff (engine : Engine) (raw declared : Text) :
    (ExtensionExact engine raw ↔ ∀ stem extension, Dotted raw stem extension →
      ¬ Inherited (engine.toLowerCase extension)) ∧
    (MimeExact engine declared ↔ ¬ Inherited (declaredType engine declared)) :=
  ⟨extensionExact_iff engine raw, mimeExact_iff engine declared⟩

/-- A name that ends in `.constructor` and that word as a type are not refused. -/
theorem constructor_accepted :
    ¬ ExtensionExact sampleEngine (Text.ofString "a.constructor") ∧
    ¬ MimeExact sampleEngine (Text.ofString "constructor") := by
  have word : sampleEngine.toLowerCase (Text.ofString "constructor") =
    Text.ofString "constructor" := by decide
  constructor
  · rintro ⟨_, unlisted⟩
    have dotted : Dotted (Text.ofString "a.constructor") (Text.ofString "a")
        (Text.ofString "constructor") := ⟨by rfl, by decide, by decide, by decide⟩
    obtain ⟨error, refused, _⟩ := unlisted (by
      rintro ⟨row, stem, extension, key, other, member, same⟩
      rw [other.unique dotted, word] at same
      exact policies_own _ member (same ▸ by decide))
    rw [resolve_dotted _ dotted, word] at refused
    have found : property policies (Text.ofString "constructor") =
      some (.inherited (Text.ofString "constructor")) := by decide +kernel
    rw [found] at refused
    cases refused
  · rintro ⟨_, unaliased⟩
    have declared : declaredType sampleEngine (Text.ofString "constructor") =
      Text.ofString "constructor" := by decide
    obtain ⟨error, refused, _⟩ := unaliased (by
      rintro ⟨canonical, key, member, same⟩
      rw [declared] at same
      exact aliases_own _ member (same ▸ by decide))
    have found : canonicalizeDeclaredMimeType sampleEngine (Text.ofString "constructor") =
      .ok (.inherited (Text.ofString "constructor")) := by rfl
    rw [found] at refused
    cases refused

end PostsMedia.Validation
