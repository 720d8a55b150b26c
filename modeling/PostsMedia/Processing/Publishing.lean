import PostsMedia.Processing.Completion
import PostsMedia.Processing.Keys
import PostsMedia.Storage.Store

namespace PostsMedia.Publishing

open Processing

/-- The statements of the transaction before its commit. -/
inductive Statement
  | updateMedia
  | stat (index : Nat)
  | checksum (index : Nat)
  | upsert (index : Nat)
  | updateAttempt
  deriving DecidableEq

/-- What goes wrong in one call. The storage adapter writes and then asks for the object, so a put
or a copy may fail after its write. -/
structure Faults where
  put : Nat → Fate
  check : Nat → Bool
  copy : Nat → Fate
  verify : Nat → Bool
  fails : Statement → Bool
  commit : Fate
  removes : Bool
  error : String

/-- The storage and the rows of the media. -/
structure World where
  store : Store
  rows : Rows

/-- The local variables of the upload loop when it ends, and the error that ended it. -/
structure Uploaded where
  store : Store
  temporary : List ObjectRef
  finals : List ObjectRef
  error : Option String

section Call

variable (deployment : Deployment) (run : Run) (files : String → Option Bytes) (faults : Faults)

/-- The upload loop from one artifact on. The final key is recorded before its copy. -/
def uploadAll : Nat → List ProcessedArtifact → List ObjectRef → List ObjectRef → Store → Uploaded
  | _, [], temporary, finals, store => ⟨store, temporary, finals, none⟩
  | index, artifact :: rest, temporary, finals, store =>
      match files artifact.path with
      | none => ⟨store, temporary, finals, some faults.error⟩
      | some [] => ⟨store, temporary, finals, some "PROCESSING_OUTPUT_INVALID"⟩
      | some content =>
          let ref := tempRef deployment run artifact
          let final := finalRef deployment run artifact
          let stored := store.put ref content
          match faults.put index with
          | .refused => ⟨store, temporary, finals, some faults.error⟩
          | .unacknowledged => ⟨stored, temporary, finals, some faults.error⟩
          | .ok =>
              if faults.check index then
                ⟨stored, temporary ++ [ref], finals, some faults.error⟩
              else match faults.copy index with
                | .refused => ⟨stored, temporary ++ [ref], finals ++ [final], some faults.error⟩
                | .unacknowledged =>
                    ⟨stored.copy ref final, temporary ++ [ref], finals ++ [final],
                      some faults.error⟩
                | .ok =>
                    if faults.verify index then
                      ⟨stored.copy ref final, temporary ++ [ref], finals ++ [final],
                        some faults.error⟩
                    else uploadAll (index + 1) rest (temporary ++ [ref]) (finals ++ [final])
                      (stored.copy ref final)

/-- The upserts of the transaction from one artifact on. -/
def upsertAll : Nat → List ProcessedArtifact → List ObjectRef → List MediaVariant →
    Option (List MediaVariant)
  | _, [], _, variants => some variants
  | _, _ :: _, [], _ => none
  | index, artifact :: rest, final :: finals, variants =>
      if faults.fails (.stat index) || faults.fails (.checksum index) ||
          faults.fails (.upsert index) then none
      else (files artifact.path).bind fun content =>
        upsertAll (index + 1) rest finals
          (upsertVariant variants (variantRow deployment run artifact final content))

/-- The transaction. It tells whether the lease was still held. -/
def transact (token : LeaseToken) (artifacts : List ProcessedArtifact) (metadata : Option Json)
    (now : Time) (finals : List ObjectRef) (rows : Rows) : Option (Rows × Bool) :=
  if faults.fails .updateMedia then none
  else if rows.media.guarded run.payload.generation token then
    (upsertAll deployment run files faults 0 artifacts finals rows.variants).bind fun variants =>
      if faults.fails .updateAttempt then none
      else some ({ rows with
        media := rows.media.completed metadata now
        variants := variants
        attempts := updateAttempt rows.attempts run.attemptId run.payload.generation
          (completeAttempt now) }, true)
  else some (rows, false)

/-- `removeMany` swallows its failure. -/
def removeMany (refs : List ObjectRef) (store : Store) : Store :=
  if faults.removes then store.removeMany refs else store

/-- The `catch` block and then the `finally` block. -/
def abort (uploaded : Uploaded) (rows : Rows) (error : String) : World × Except String Unit :=
  (⟨removeMany faults uploaded.temporary
    (removeMany faults (uploaded.temporary ++ uploaded.finals) uploaded.store), rows⟩,
    .error error)

def publish (token : LeaseToken) (artifacts : List ProcessedArtifact) (metadata : Option Json)
    (now : Time) (before : World) : World × Except String Unit :=
  let uploaded := uploadAll deployment run files faults 0 artifacts [] [] before.store
  match uploaded.error with
  | some error => abort faults uploaded before.rows error
  | none =>
      match transact deployment run files faults token artifacts metadata now uploaded.finals
          before.rows with
      | none => abort faults uploaded before.rows faults.error
      | some (rows, completed) =>
          match faults.commit with
          | .refused => abort faults uploaded before.rows faults.error
          | .unacknowledged => abort faults uploaded rows faults.error
          | .ok =>
              if completed then
                (⟨removeMany faults uploaded.temporary uploaded.store, rows⟩, .ok ())
              else abort faults uploaded rows "PROCESSING_LEASE_LOST"

end Call

/-- The removals succeed, and the commit reports its outcome. -/
structure Truthful (faults : Faults) : Prop where
  removes : faults.removes = true
  commit : faults.commit ≠ .unacknowledged

/-- The final object of an artifact exists, and its variant row points to it. -/
def Published (deployment : Deployment) (run : Run) (artifact : ProcessedArtifact)
    (after : World) : Prop :=
  (after.store.objects (finalRef deployment run artifact)).isSome = true ∧
    ∃ variant ∈ after.rows.variants,
      variant.key = (run.media.id, run.media.processingProfile, artifact.variantType) ∧
        (⟨variant.bucket, variant.objectKey⟩ : ObjectRef) = finalRef deployment run artifact

/-- The call leaves no object behind but the final ones of a publication that took place. -/
structure NoLitter (deployment : Deployment) (run : Run) (artifacts : List ProcessedArtifact)
    (before : World) (result : World × Except String Unit) : Prop where
  temporary : ∀ artifact ∈ artifacts,
    Store.Clear before.store result.1.store (tempRef deployment run artifact)
  thrown : ∀ error, result.2 = .error error → (∀ artifact ∈ artifacts,
    Store.Clear before.store result.1.store (finalRef deployment run artifact)) ∧
      result.1.rows = before.rows
  returned : result.2 = .ok () → ∀ artifact ∈ artifacts, Published deployment run artifact result.1

section Conditions

variable (files : String → Option Bytes) (faults : Faults)

/-- The file of an artifact is there and not empty. -/
def Readable (artifact : ProcessedArtifact) : Prop :=
  ∃ content, files artifact.path = some content ∧ content ≠ []

/-- All storage calls for one artifact succeed. -/
def Passes (index : Nat) (artifact : ProcessedArtifact) : Prop :=
  Readable files artifact ∧ faults.put index = .ok ∧ faults.check index = false ∧
    faults.copy index = .ok ∧ faults.verify index = false

/-- The first storage call that fails is a put that has written its object, under a name that no
earlier artifact has. -/
def LatePut : Nat → List String → List ProcessedArtifact → Prop
  | _, _, [] => False
  | index, names, artifact :: rest =>
      (Readable files artifact ∧ faults.put index = .unacknowledged ∧ artifact.filename ∉ names) ∨
        (Passes files faults index artifact ∧
          LatePut (index + 1) (names ++ [artifact.filename]) rest)

/-- All storage calls from one artifact on succeed. -/
def AllPass (index : Nat) (artifacts : List ProcessedArtifact) : Prop :=
  ∀ k artifact, artifacts[k]? = some artifact → Passes files faults (index + k) artifact

/-- No statement of the transaction fails for this artifact. -/
def Works (index : Nat) : Prop :=
  faults.fails (.stat index) = false ∧ faults.fails (.checksum index) = false ∧
    faults.fails (.upsert index) = false

/-- No call and no statement fails, and the lease is still held. -/
structure Succeeds (run : Run) (token : LeaseToken) (artifacts : List ProcessedArtifact)
    (rows : Rows) : Prop where
  uploads : AllPass files faults 0 artifacts
  upserts : ∀ k < artifacts.length, Works faults (0 + k)
  updateMedia : faults.fails .updateMedia = false
  updateAttempt : faults.fails .updateAttempt = false
  held : rows.media.guarded run.payload.generation token = true
  commit : faults.commit = .ok

/-- Artifacts of one variant type have one name. -/
def OneName (artifacts : List ProcessedArtifact) : Prop :=
  ∀ artifact ∈ artifacts, ∀ other ∈ artifacts, artifact.variantType = other.variantType →
    artifact.filename = other.filename

end Conditions

section Keys

variable {deployment : Deployment} {run : Run} {artifact other : ProcessedArtifact}

/-- Within one call a temporary key is determined by the name. -/
theorem tempRef_eq_iff : tempRef deployment run artifact = tempRef deployment run other ↔
    artifact.filename = other.filename := by
  constructor
  · intro keys
    have texts := congrArg (fun ref => ref.objectKey.toList) keys
    simp only [tempRef, StorageBuckets.processingTempKey, String.toList_append,
      List.append_cancel_left_eq] at texts
    exact String.toList_inj.mp texts
  · intro names
    rw [tempRef, tempRef, names]

theorem finalRef_eq_iff : finalRef deployment run artifact = finalRef deployment run other ↔
    artifact.filename = other.filename := by
  constructor
  · intro keys
    have texts := congrArg (fun ref => ref.objectKey.toList) keys
    simp only [finalRef, StorageBuckets.processedAttemptKey, String.toList_append,
      List.append_cancel_left_eq] at texts
    exact String.toList_inj.mp texts
  · intro names
    rw [finalRef, finalRef, names]

end Keys

section Loop

variable {deployment : Deployment} {run : Run} {files : String → Option Bytes} {faults : Faults}
variable {before : Store} {names : List String} {index : Nat} {artifact : ProcessedArtifact}
variable {artifacts rest : List ProcessedArtifact} {uploaded : Uploaded}

/-- The undo lists of a call hold the temporary keys of these names and final keys. -/
structure Listed (deployment : Deployment) (run : Run) (before : Store) (names : List String)
    (store : Store) (temporary finals : List ObjectRef) : Prop where
  since : Store.Since before store
  temporary : ∀ ref, ref ∈ temporary ↔
    ∃ artifact : ProcessedArtifact, artifact.filename ∈ names ∧
      ref = tempRef deployment run artifact
  finals : ∀ ref ∈ finals, ∃ artifact, ref = finalRef deployment run artifact

/-- The undo lists name everything that the call has written. -/
def Recorded (store : Store) (temporary finals : List ObjectRef) : Prop :=
  ∀ ref, store.written ref = true → ref ∈ temporary ∨ ref ∈ finals

/-- The call has left a temporary object that no undo list names. -/
def Lost (deployment : Deployment) (run : Run) (artifacts : List ProcessedArtifact)
    (store : Store) (temporary : List ObjectRef) : Prop :=
  ∃ artifact ∈ artifacts, store.written (tempRef deployment run artifact) = true ∧
    tempRef deployment run artifact ∉ temporary

theorem allPass_cons : AllPass files faults index (artifact :: rest) ↔
    Passes files faults index artifact ∧ AllPass files faults (index + 1) rest := by
  constructor
  · intro all
    refine ⟨all 0 artifact rfl, fun k other found => ?_⟩
    have later := all (k + 1) other found
    rwa [show index + (k + 1) = index + 1 + k by omega] at later
  · rintro ⟨first, later⟩ k other found
    cases k with
    | zero =>
        cases found
        exact first
    | succ k =>
        rw [show index + (k + 1) = index + 1 + k by omega]
        exact later k other found

/-- What the loop leaves behind. -/
structure Looped (deployment : Deployment) (run : Run) (files : String → Option Bytes)
    (faults : Faults) (before : Store) (index : Nat) (names : List String)
    (rest : List ProcessedArtifact) (finals : List ObjectRef) (uploaded : Uploaded) : Prop where
  listed : ∃ names, Listed deployment run before names uploaded.store uploaded.temporary
    uploaded.finals
  lost : LatePut files faults index names rest →
    Lost deployment run rest uploaded.store uploaded.temporary
  recorded : ¬ LatePut files faults index names rest →
    Recorded uploaded.store uploaded.temporary uploaded.finals
  stopped : uploaded.error.isSome = true → ¬ AllPass files faults index rest
  passed : uploaded.error = none → AllPass files faults index rest ∧
    ¬ LatePut files faults index names rest ∧
    uploaded.finals = finals ++ rest.map (finalRef deployment run) ∧
    ∀ ref ∈ uploaded.finals, (uploaded.store.objects ref).isSome = true

/-- The loop stops at this artifact. -/
theorem Looped.stop {finals : List ObjectRef} (fails : ¬ Passes files faults index artifact)
    (error : uploaded.error.isSome = true)
    (listed : ∃ names, Listed deployment run before names uploaded.store uploaded.temporary
      uploaded.finals)
    (lost : Readable files artifact → faults.put index = .unacknowledged →
      artifact.filename ∉ names →
        Lost deployment run [artifact] uploaded.store uploaded.temporary)
    (recorded : ¬ (Readable files artifact ∧ faults.put index = .unacknowledged ∧
      artifact.filename ∉ names) →
        Recorded uploaded.store uploaded.temporary uploaded.finals) :
    Looped deployment run files faults before index names (artifact :: rest) finals uploaded := by
  have late : LatePut files faults index names (artifact :: rest) ↔
      Readable files artifact ∧ faults.put index = .unacknowledged ∧
        artifact.filename ∉ names := by
    simp [LatePut, fails]
  refine ⟨listed, fun happens => ?_, fun never => recorded fun here => never (late.mpr here),
    fun _ all => fails (allPass_cons.mp all).1, fun none => ?_⟩
  · obtain ⟨readable, put, fresh⟩ := late.mp happens
    obtain ⟨other, member, left⟩ := lost readable put fresh
    rw [List.mem_singleton] at member
    subst member
    exact ⟨other, List.mem_cons_self, left⟩
  · rw [none] at error
    cases error

/-- The loop goes on after an artifact whose calls succeed. -/
theorem Looped.next {finals : List ObjectRef} (passes : Passes files faults index artifact)
    (rested : Looped deployment run files faults before (index + 1)
      (names ++ [artifact.filename]) rest (finals ++ [finalRef deployment run artifact])
      uploaded) :
    Looped deployment run files faults before index names (artifact :: rest) finals uploaded := by
  have late : LatePut files faults index names (artifact :: rest) ↔
      LatePut files faults (index + 1) (names ++ [artifact.filename]) rest := by
    simp [LatePut, passes, passes.2.1]
  refine ⟨rested.listed, fun happens => ?_, fun never => rested.recorded (late.not.mp never),
    fun error all => rested.stopped error (allPass_cons.mp all).2, fun none => ?_⟩
  · obtain ⟨other, member, left⟩ := rested.lost (late.mp happens)
    exact ⟨other, List.mem_cons_of_mem _ member, left⟩
  · obtain ⟨all, never, finals, present⟩ := rested.passed none
    refine ⟨allPass_cons.mpr ⟨passes, all⟩, late.not.mpr never, ?_, present⟩
    simpa using finals

section Push

variable {store : Store} {temporary finals : List ObjectRef} {content : Bytes} {ref : ObjectRef}

/-- The temporary key of the next artifact joins its list. -/
theorem Listed.push (listed : Listed deployment run before names store temporary finals) :
    Listed deployment run before (names ++ [artifact.filename])
      (store.put (tempRef deployment run artifact) content)
      (temporary ++ [tempRef deployment run artifact]) finals := by
  refine ⟨listed.since.put, fun ref => ?_, listed.finals⟩
  rw [List.mem_append, listed.temporary, List.mem_singleton]
  constructor
  · rintro (⟨other, known, rfl⟩ | rfl)
    · exact ⟨other, List.mem_append_left _ known, rfl⟩
    · exact ⟨artifact, by simp, rfl⟩
  · rintro ⟨other, known, rfl⟩
    rcases List.mem_append.mp known with earlier | last
    · exact .inl ⟨other, earlier, rfl⟩
    · exact .inr (tempRef_eq_iff.mpr (List.mem_singleton.mp last))

theorem Recorded.push (recorded : Recorded store temporary finals) :
    Recorded (store.put ref content) (temporary ++ [ref]) finals := by
  intro other here
  by_cases same : other = ref
  · exact .inl (by simp [same])
  · rcases recorded other (by simpa [Store.put, same] using here) with left | right
    · exact .inl (List.mem_append_left _ left)
    · exact .inr right

/-- The final key of the next artifact joins its list before the copy. -/
theorem Listed.pushFinal (listed : Listed deployment run before names store temporary finals) :
    Listed deployment run before names store temporary
      (finals ++ [finalRef deployment run artifact]) := by
  refine ⟨listed.since, listed.temporary, fun ref member => ?_⟩
  rcases List.mem_append.mp member with earlier | last
  · exact listed.finals ref earlier
  · exact ⟨artifact, List.mem_singleton.mp last⟩

theorem Recorded.pushFinal (recorded : Recorded store temporary finals) (ref : ObjectRef) :
    Recorded store temporary (finals ++ [ref]) := by
  intro other here
  exact (recorded other here).imp_right (List.mem_append_left _)

theorem Recorded.putTemporary (recorded : Recorded store temporary finals)
    (known : ref ∈ temporary) : Recorded (store.put ref content) temporary finals := by
  intro other here
  by_cases same : other = ref
  · exact .inl (same ▸ known)
  · exact recorded other (by simpa [Store.put, same] using here)

/-- The copy writes only a final key that is on its list. -/
theorem Recorded.put (recorded : Recorded store temporary finals) (known : ref ∈ finals) :
    Recorded (store.put ref content) temporary finals := by
  intro other here
  by_cases same : other = ref
  · exact .inr (same ▸ known)
  · exact recorded other (by simpa [Store.put, same] using here)

end Push

/-- The loop records every object that it writes, unless its first failure is a late put. -/
theorem uploadAll_looped {temporary finals : List ObjectRef} {store : Store}
    (listed : Listed deployment run before names store temporary finals)
    (recorded : Recorded store temporary finals)
    (present : ∀ ref ∈ finals, (store.objects ref).isSome = true) :
    Looped deployment run files faults before index names rest finals
      (uploadAll deployment run files faults index rest temporary finals store) := by
  induction rest generalizing index names temporary finals store with
  | nil =>
      refine ⟨⟨names, listed⟩, False.elim, fun _ => recorded, fun error => ?_, fun _ => ?_⟩
      · cases error
      · have all : AllPass files faults index [] := fun k artifact found => by cases found
        exact ⟨all, id, by simp [uploadAll], present⟩
  | cons artifact rest ih =>
      simp only [uploadAll]
      split
      · rename_i missing
        have unreadable : ¬ Readable files artifact := by simp [Readable, missing]
        exact .stop (fun passes => unreadable passes.1) rfl ⟨names, listed⟩
          (fun readable => absurd readable unreadable) fun _ => recorded
      · rename_i empty
        have unreadable : ¬ Readable files artifact := by simp [Readable, empty]
        exact .stop (fun passes => unreadable passes.1) rfl ⟨names, listed⟩
          (fun readable => absurd readable unreadable) fun _ => recorded
      rename_i content nonempty found
      have readable : Readable files artifact := ⟨content, found, nonempty⟩
      rw [Store.copy_put]
      let ref := tempRef deployment run artifact
      let final := finalRef deployment run artifact
      have pushed : Listed deployment run before (names ++ [artifact.filename])
          (store.put ref content) (temporary ++ [ref]) finals := listed.push
      have noted : Recorded (store.put ref content) (temporary ++ [ref]) finals := recorded.push
      have pushedFinal : Listed deployment run before (names ++ [artifact.filename])
          (store.put ref content) (temporary ++ [ref]) (finals ++ [final]) := pushed.pushFinal
      have notedFinal : Recorded (store.put ref content) (temporary ++ [ref]) (finals ++ [final]) :=
        noted.pushFinal final
      have copied : Listed deployment run before (names ++ [artifact.filename])
          ((store.put ref content).put final content) (temporary ++ [ref]) (finals ++ [final]) :=
        ⟨pushedFinal.since.put, pushedFinal.temporary, pushedFinal.finals⟩
      have notedCopy : Recorded ((store.put ref content).put final content) (temporary ++ [ref])
          (finals ++ [final]) := notedFinal.put (by simp)
      cases put : faults.put index with
      | refused =>
          exact .stop (by simp [Passes, put]) rfl ⟨names, listed⟩ (by simp [put]) fun _ => recorded
      | unacknowledged =>
          refine .stop (by simp [Passes, put]) rfl ?_ (fun _ _ fresh => ?_) fun known => ?_
          · exact ⟨names, listed.since.put, listed.temporary, listed.finals⟩
          · refine ⟨artifact, List.mem_singleton_self _, by simp [Store.put], fun member => ?_⟩
            obtain ⟨other, named, same⟩ := (listed.temporary _).mp member
            exact fresh (tempRef_eq_iff.mp same ▸ named)
          · have named : artifact.filename ∈ names := by
              by_contra fresh
              exact known ⟨readable, put, fresh⟩
            exact recorded.putTemporary ((listed.temporary _).mpr ⟨artifact, named, rfl⟩)
      | ok =>
          dsimp only
          split
          · rename_i check
            exact .stop (by simp [Passes, check]) rfl ⟨_, pushed⟩ (by simp [put]) fun _ => noted
          rename_i check
          cases copy : faults.copy index with
          | refused =>
              exact .stop (by simp [Passes, copy]) rfl ⟨_, pushedFinal⟩ (by simp [put])
                fun _ => notedFinal
          | unacknowledged =>
              exact .stop (by simp [Passes, copy]) rfl ⟨_, copied⟩ (by simp [put])
                fun _ => notedCopy
          | ok =>
              dsimp only
              split
              · rename_i verify
                exact .stop (by simp [Passes, verify]) rfl ⟨_, copied⟩ (by simp [put])
                  fun _ => notedCopy
              rename_i verify
              have passes : Passes files faults index artifact :=
                ⟨readable, put, by simpa using check, copy, by simpa using verify⟩
              have stored : ∀ ref ∈ finals ++ [finalRef deployment run artifact],
                  (((store.put (tempRef deployment run artifact) content).put
                    (finalRef deployment run artifact) content).objects ref).isSome = true := by
                intro ref member
                rcases List.mem_append.mp member with earlier | last
                · exact Store.isSome_put (Store.isSome_put (present ref earlier))
                · simp [List.mem_singleton.mp last, Store.put]
              exact (ih copied notedCopy stored).next passes

end Loop

section Transaction

variable {deployment : Deployment} {run : Run} {files : String → Option Bytes} {faults : Faults}
variable {variants after : List MediaVariant} {index : Nat} {artifact : ProcessedArtifact}
variable {done rest artifacts : List ProcessedArtifact}

/-- The unique key of the variant row of an artifact. -/
def variantKey (run : Run) (artifact : ProcessedArtifact) : String × String × MediaVariantType :=
  (run.media.id, run.media.processingProfile, artifact.variantType)

/-- A row after an upsert is the new one or an old one with another key. -/
theorem mem_upsertVariant {variant other : MediaVariant} :
    other ∈ upsertVariant variants variant ↔
      other = variant ∨ (other ∈ variants ∧ other.key ≠ variant.key) := by
  unfold upsertVariant
  split
  · rename_i present
    simp only [List.any_eq_true, decide_eq_true_eq] at present
    rw [List.mem_map]
    constructor
    · rintro ⟨old, member, rfl⟩
      by_cases same : old.key = variant.key
      · exact .inl (if_pos same)
      · rw [if_neg same]
        exact .inr ⟨member, same⟩
    · rintro (rfl | ⟨member, different⟩)
      · obtain ⟨old, member, same⟩ := present
        exact ⟨old, member, if_pos same⟩
      · exact ⟨other, member, if_neg different⟩
  · rename_i absent
    simp only [List.any_eq_true, decide_eq_true_eq, not_exists, not_and] at absent
    rw [List.mem_append, List.mem_singleton]
    constructor
    · rintro (member | rfl)
      · exact .inr ⟨member, absent other member⟩
      · exact .inl rfl
    · rintro (rfl | ⟨member, _⟩)
      · exact .inr rfl
      · exact .inl member

/-- Each of these artifacts has one row under its key, and that row names the object of an artifact
of the same type. -/
structure Upserted (deployment : Deployment) (run : Run) (done : List ProcessedArtifact)
    (variants : List MediaVariant) : Prop where
  named : ∀ artifact ∈ done, ∃ variant ∈ variants, variant.key = variantKey run artifact ∧
    ∃ other ∈ done, other.variantType = artifact.variantType ∧
      (⟨variant.bucket, variant.objectKey⟩ : ObjectRef) = finalRef deployment run other
  unique : ∀ artifact ∈ done, ∀ variant ∈ variants, ∀ other ∈ variants,
    variant.key = variantKey run artifact → other.key = variantKey run artifact → variant = other

theorem variantKey_eq_iff {other : ProcessedArtifact} :
    variantKey run artifact = variantKey run other ↔
      artifact.variantType = other.variantType := by
  simp [variantKey]

theorem Upserted.push (upserted : Upserted deployment run done variants) (content : Bytes) :
    Upserted deployment run (done ++ [artifact]) (upsertVariant variants
      (variantRow deployment run artifact (finalRef deployment run artifact) content)) := by
  have newKey : (variantRow deployment run artifact (finalRef deployment run artifact)
    content).key = variantKey run artifact := rfl
  refine ⟨fun other member => ?_, fun other member first here second there keys keys' => ?_⟩
  · by_cases same : other.variantType = artifact.variantType
    · refine ⟨_, mem_upsertVariant.mpr (.inl rfl), ?_, artifact, by simp, same.symm, rfl⟩
      rw [newKey, variantKey_eq_iff.mpr same]
    · have earlier : other ∈ done := by
        rcases List.mem_append.mp member with earlier | last
        · exact earlier
        · exact absurd (congrArg _ (List.mem_singleton.mp last)) same
      obtain ⟨variant, present, key, named, known, type, ref⟩ := upserted.named other earlier
      have different : variant.key ≠ variantKey run artifact := by
        rw [key, Ne, variantKey_eq_iff]
        exact same
      exact ⟨variant, mem_upsertVariant.mpr (.inr ⟨present, different⟩), key, named,
        List.mem_append_left _ known, type, ref⟩
  · rw [mem_upsertVariant, newKey] at here there
    rcases here with rfl | ⟨here, different⟩
    · rcases there with rfl | ⟨_, different⟩
      · rfl
      · exact absurd (keys'.trans (keys.symm.trans newKey)) different
    · rcases there with rfl | ⟨there, _⟩
      · exact absurd (keys.trans (keys'.symm.trans newKey)) different
      · have earlier : other ∈ done := by
          rcases List.mem_append.mp member with earlier | last
          · exact earlier
          · exact absurd (List.mem_singleton.mp last ▸ keys) different
        exact upserted.unique other earlier first here second there keys keys'

theorem upsertAll_upserted (upserted : Upserted deployment run done variants)
    (went : upsertAll deployment run files faults index rest
      (rest.map (finalRef deployment run)) variants = some after) :
    Upserted deployment run (done ++ rest) after := by
  induction rest generalizing index done variants with
  | nil =>
      cases went
      rwa [List.append_nil]
  | cons artifact rest ih =>
      simp only [upsertAll, List.map_cons] at went
      split at went
      · cases went
      · obtain ⟨content, _, later⟩ := Option.bind_eq_some_iff.mp went
        have all := ih (upserted.push content) later
        rwa [List.append_assoc, List.singleton_append] at all

/-- The upserts of readable artifacts go through exactly when no statement fails. -/
theorem upsertAll_isSome_iff {finals : List ObjectRef}
    (readable : ∀ artifact ∈ rest, Readable files artifact)
    (enough : rest.length ≤ finals.length) :
    (upsertAll deployment run files faults index rest finals variants).isSome = true ↔
      ∀ k < rest.length, Works faults (index + k) := by
  induction rest generalizing index finals variants with
  | nil => simp [upsertAll]
  | cons artifact rest ih =>
      cases finals with
      | nil => simp at enough
      | cons final finals =>
          obtain ⟨content, found, _⟩ := readable artifact List.mem_cons_self
          have shorter : rest.length ≤ finals.length := Nat.le_of_succ_le_succ enough
          have later : (upsertAll deployment run files faults (index + 1) rest finals
              (upsertVariant variants (variantRow deployment run artifact final content))).isSome =
                true ↔ ∀ k < rest.length, Works faults (index + 1 + k) :=
            ih (fun other member => readable other (List.mem_cons_of_mem _ member)) shorter
          have split : (∀ k < (artifact :: rest).length, Works faults (index + k)) ↔
              Works faults index ∧ ∀ k < rest.length, Works faults (index + 1 + k) := by
            constructor
            · intro works
              refine ⟨works 0 (Nat.succ_pos _), fun k inside => ?_⟩
              rw [show index + 1 + k = index + (k + 1) by omega]
              exact works (k + 1) (Nat.succ_lt_succ inside)
            · rintro ⟨first, others⟩ k inside
              cases k with
              | zero => exact first
              | succ k =>
                  rw [show index + (k + 1) = index + 1 + k by omega]
                  exact others k (Nat.lt_of_succ_lt_succ inside)
          rw [split, ← later]
          simp only [upsertAll, found, Option.bind_some]
          by_cases works : Works faults index
          · have none : (faults.fails (.stat index) || faults.fails (.checksum index) ||
                faults.fails (.upsert index)) = false := by
              simp [works.1, works.2.1, works.2.2]
            simp [none, works]
          · have some : (faults.fails (.stat index) || faults.fails (.checksum index) ||
                faults.fails (.upsert index)) = true := by
              by_contra none
              simp only [Bool.or_eq_true, not_or, Bool.not_eq_true] at none
              exact works ⟨none.1.1, none.1.2, none.2⟩
            simp [some, works]

end Transaction

section Outcome

variable {deployment : Deployment} {run : Run} {files : String → Option Bytes} {faults : Faults}
variable {token : LeaseToken} {artifacts : List ProcessedArtifact} {metadata : Option Json}
variable {now : Time} {before : World} {uploaded : Uploaded} {rows : Rows}

/-- The loop records what it has written exactly when it has no late put. -/
theorem Looped.recorded_iff {names : List String} {index : Nat} {rest : List ProcessedArtifact}
    {finals : List ObjectRef} {store : Store}
    (looped : Looped deployment run files faults store index names rest finals uploaded) :
    Recorded uploaded.store uploaded.temporary uploaded.finals ↔
      ¬ LatePut files faults index names rest := by
  refine ⟨fun recorded late => ?_, looped.recorded⟩
  obtain ⟨names, listed⟩ := looped.listed
  obtain ⟨artifact, _, written, unlisted⟩ := looped.lost late
  rcases recorded _ written with temporary | final
  · exact unlisted temporary
  · obtain ⟨other, equal⟩ := listed.finals _ final
    exact tempRef_ne_finalRef equal

/-- After a failure everything that the undo lists name is gone. -/
theorem abort_written (removes : faults.removes = true) (rows : Rows) (error : String)
    (ref : ObjectRef) :
    (abort faults uploaded rows error).1.store.written ref = true ↔
      uploaded.store.written ref = true ∧ ref ∉ uploaded.temporary ∧ ref ∉ uploaded.finals := by
  simp only [abort, removeMany, removes, if_true, Store.written_removeMany, List.mem_append]
  tauto

/-- A call that throws has left nothing exactly when its undo lists name all that it has
written. -/
theorem abort_noLitter_iff (removes : faults.removes = true)
    (listed : ∃ names, Listed deployment run before.store names uploaded.store uploaded.temporary
      uploaded.finals)
    (known : Recorded uploaded.store uploaded.temporary uploaded.finals ∨
      Lost deployment run artifacts uploaded.store uploaded.temporary)
    (same : rows = before.rows) (error : String) :
    NoLitter deployment run artifacts before (abort faults uploaded rows error) ↔
      Recorded uploaded.store uploaded.temporary uploaded.finals := by
  obtain ⟨names, listed⟩ := listed
  have since : Store.Since before.store (abort faults uploaded rows error).1.store := by
    simp only [abort, removeMany, removes, if_true]
    exact (listed.since.removeMany _).removeMany _
  constructor
  · intro noLitter
    rcases known with recorded | ⟨artifact, member, written, unlisted⟩
    · exact recorded
    · have notFinal : tempRef deployment run artifact ∉ uploaded.finals := by
        intro listedFinal
        obtain ⟨other, equal⟩ := listed.finals _ listedFinal
        exact tempRef_ne_finalRef equal
      have clear := since.clear_iff.mp (noLitter.temporary artifact member)
      have stays := (abort_written removes rows error _).mpr ⟨written, unlisted, notFinal⟩
      rw [clear] at stays
      cases stays
  · intro recorded
    have gone : ∀ ref, (abort faults uploaded rows error).1.store.written ref = false := by
      intro ref
      rw [← Bool.not_eq_true, abort_written removes]
      rintro ⟨written, unlisted, notFinal⟩
      exact (recorded ref written).elim unlisted notFinal
    refine ⟨fun artifact _ => since.clear_iff.mpr (gone _), fun _ _ => ⟨fun artifact _ => ?_, same⟩,
      fun returned => ?_⟩
    · exact since.clear_iff.mpr (gone _)
    · cases returned

/-- The rows of all artifacts point to their own objects exactly when artifacts of one type share
their name. -/
theorem rows_published_iff {variants : List MediaVariant}
    (upserted : Upserted deployment run artifacts variants) :
    (∀ artifact ∈ artifacts, ∃ variant ∈ variants, variant.key = variantKey run artifact ∧
      (⟨variant.bucket, variant.objectKey⟩ : ObjectRef) = finalRef deployment run artifact) ↔
        OneName artifacts := by
  constructor
  · intro published artifact member other member' sameType
    obtain ⟨variant, present, key, ref⟩ := published artifact member
    obtain ⟨variant', present', key', ref'⟩ := published other member'
    rw [← variantKey_eq_iff.mpr sameType] at key'
    rw [upserted.unique artifact member variant present variant' present' key key', ref'] at ref
    exact (finalRef_eq_iff.mp ref).symm
  · intro oneName artifact member
    obtain ⟨variant, present, key, other, known, type, ref⟩ := upserted.named artifact member
    exact ⟨variant, present, key, ref.trans (finalRef_eq_iff.mpr (oneName _ known _ member type))⟩

/-- A publication that took place has left no litter exactly when its variant types have one name
each. -/
theorem commit_noLitter_iff (removes : faults.removes = true)
    (listed : ∃ names, Listed deployment run before.store names uploaded.store uploaded.temporary
      uploaded.finals)
    (recorded : Recorded uploaded.store uploaded.temporary uploaded.finals)
    (finals : uploaded.finals = artifacts.map (finalRef deployment run))
    (present : ∀ ref ∈ uploaded.finals, (uploaded.store.objects ref).isSome = true)
    (upserted : Upserted deployment run artifacts rows.variants) :
    NoLitter deployment run artifacts before
      (⟨removeMany faults uploaded.temporary uploaded.store, rows⟩, .ok ()) ↔
        OneName artifacts := by
  obtain ⟨names, listed⟩ := listed
  have notTemporary : ∀ artifact, finalRef deployment run artifact ∉ uploaded.temporary := by
    intro artifact member
    obtain ⟨other, _, equal⟩ := (listed.temporary _).mp member
    exact tempRef_ne_finalRef equal.symm
  have kept : ∀ artifact ∈ artifacts, ((uploaded.store.removeMany uploaded.temporary).objects
      (finalRef deployment run artifact)).isSome = true := by
    intro artifact member
    rw [Store.objects_removeMany _ (notTemporary artifact)]
    exact present _ (finals ▸ List.mem_map_of_mem member)
  rw [← rows_published_iff upserted, removeMany, if_pos removes]
  constructor
  · intro noLitter artifact member
    exact (noLitter.returned rfl artifact member).2
  · intro published
    refine ⟨fun artifact _ => ?_, fun error threw => ?_, fun _ artifact member => ?_⟩
    · rw [(listed.since.removeMany _).clear_iff, ← Bool.not_eq_true, Store.written_removeMany]
      rintro ⟨written, unlisted⟩
      rcases recorded _ written with temporary | final
      · exact unlisted temporary
      · obtain ⟨other, equal⟩ := listed.finals _ final
        exact tempRef_ne_finalRef equal
    · cases threw
    · exact ⟨kept artifact member, published artifact member⟩

/-- The transaction either changes nothing without the lease, or all its statements went through. -/
theorem transact_some {finals : List ObjectRef} {completed : Bool}
    (went : transact deployment run files faults token artifacts metadata now finals before.rows =
      some (rows, completed)) :
    (completed = false →
      before.rows.media.guarded run.payload.generation token = false ∧ rows = before.rows) ∧
    (completed = true → faults.fails .updateMedia = false ∧
      before.rows.media.guarded run.payload.generation token = true ∧
      upsertAll deployment run files faults 0 artifacts finals before.rows.variants =
        some rows.variants ∧ faults.fails .updateAttempt = false) := by
  unfold transact at went
  by_cases updateMedia : faults.fails .updateMedia = true
  · simp [updateMedia] at went
  by_cases held : before.rows.media.guarded run.payload.generation token = true
  · rw [if_neg updateMedia, if_pos held] at went
    obtain ⟨variants, upserts, later⟩ := Option.bind_eq_some_iff.mp went
    split at later
    · cases later
    · rename_i updateAttempt
      cases later
      simpa [held, upserts] using And.intro updateMedia updateAttempt
  · rw [if_neg updateMedia, if_neg held] at went
    cases went
    simpa using held

/-- With removals that succeed and truthful commits a publication leaves no litter exactly when its
first failing storage call is no put that has written a new object, and when, in case it succeeds,
its variant types have one name each. -/
theorem publish_noLitter_iff (deployment : Deployment) (run : Run)
    (files : String → Option Bytes) (faults : Faults) (token : LeaseToken)
    (artifacts : List ProcessedArtifact) (metadata : Option Json) (now : Time) (before : World)
    (unwritten : ∀ ref, before.store.written ref = false) (truthful : Truthful faults) :
    NoLitter deployment run artifacts before
        (publish deployment run files faults token artifacts metadata now before) ↔
      ¬ LatePut files faults 0 [] artifacts ∧
        (Succeeds files faults run token artifacts before.rows → OneName artifacts) := by
  have start : Listed deployment run before.store [] before.store [] [] :=
    ⟨.refl unwritten, by simp, by simp⟩
  have looped : Looped deployment run files faults before.store 0 [] artifacts []
      (uploadAll deployment run files faults 0 artifacts [] [] before.store) :=
    uploadAll_looped start (fun ref written => by simp [unwritten ref] at written) (by simp)
  revert looped
  simp only [publish]
  generalize uploadAll deployment run files faults 0 artifacts [] [] before.store = uploaded
  intro looped
  have known : Recorded uploaded.store uploaded.temporary uploaded.finals ∨
      Lost deployment run artifacts uploaded.store uploaded.temporary :=
    (em (LatePut files faults 0 [] artifacts)).symm.imp looped.recorded looped.lost
  have failed (rows : Rows) (same : rows = before.rows) (error : String)
      (fails : ¬ Succeeds files faults run token artifacts before.rows) :
      NoLitter deployment run artifacts before (abort faults uploaded rows error) ↔
        ¬ LatePut files faults 0 [] artifacts ∧
          (Succeeds files faults run token artifacts before.rows → OneName artifacts) := by
    rw [abort_noLitter_iff truthful.removes looped.listed known same, looped.recorded_iff]
    simp [fails]
  cases error : uploaded.error with
  | some error' =>
      exact failed _ rfl _ fun succeeds => looped.stopped (by simp [error]) succeeds.uploads
  | none =>
      obtain ⟨all, never, finals, present⟩ := looped.passed error
      rw [List.nil_append] at finals
      have readable : ∀ artifact ∈ artifacts, Readable files artifact := by
        intro artifact member
        obtain ⟨k, found⟩ := List.mem_iff_getElem?.mp member
        exact (all k artifact found).1
      have works : (upsertAll deployment run files faults 0 artifacts uploaded.finals
          before.rows.variants).isSome = true ↔ ∀ k < artifacts.length, Works faults (0 + k) :=
        upsertAll_isSome_iff readable (by simp [finals])
      cases went : transact deployment run files faults token artifacts metadata now
          uploaded.finals before.rows with
      | none =>
          refine failed _ rfl _ fun succeeds => ?_
          obtain ⟨variants, upserts⟩ := Option.isSome_iff_exists.mp (works.mpr succeeds.upserts)
          simp [transact, succeeds.updateMedia, succeeds.held, upserts,
            succeeds.updateAttempt] at went
      | some result =>
          obtain ⟨rows, completed⟩ := result
          cases commits : faults.commit with
          | refused =>
              refine failed _ rfl _ fun succeeds => ?_
              rw [succeeds.commit] at commits
              cases commits
          | unacknowledged => exact absurd commits truthful.commit
          | ok =>
              have outcome := transact_some went
              cases completed with
              | false =>
                  obtain ⟨lost, same⟩ := outcome.1 rfl
                  refine failed rows same _ fun succeeds => ?_
                  rw [succeeds.held] at lost
                  cases lost
              | true =>
                  obtain ⟨updateMedia, held, upserts, updateAttempt⟩ := outcome.2 rfl
                  have succeeds : Succeeds files faults run token artifacts before.rows :=
                    ⟨all, works.mp (by simp [upserts]), updateMedia, updateAttempt, held, commits⟩
                  have none : Upserted deployment run [] before.rows.variants :=
                    ⟨by simp, by simp⟩
                  rw [finals] at upserts
                  have upserted : Upserted deployment run ([] ++ artifacts) rows.variants :=
                    upsertAll_upserted none upserts
                  rw [List.nil_append] at upserted
                  have committed : NoLitter deployment run artifacts before
                      (⟨removeMany faults uploaded.temporary uploaded.store, rows⟩, .ok ()) ↔
                        OneName artifacts :=
                    commit_noLitter_iff truthful.removes looped.listed (looped.recorded never)
                      finals present upserted
                  simpa [never, succeeds] using committed

/-- The recording under a lease, and its one file. -/
def recordingWorld : World where
  store := ⟨fun _ => none, fun _ => false⟩
  rows := { recording with media := { recording.media with processingLeaseToken := some 0 } }

def recordingRun : Run where
  payload := recordingPayload
  attemptsMade := 0
  media := recordingWorld.rows.media
  attemptId := "a"

def recordingFile : ProcessedArtifact where
  path := "/tmp/audio.m4a"
  filename := "audio.m4a"
  variantType := .normalizedAudio
  mimeType := "audio/mp4"
  format := "m4a"

def noFaults : Faults where
  put _ := .ok
  check _ := false
  copy _ := .ok
  verify _ := false
  fails _ := false
  commit := .ok
  removes := true
  error := "ETIMEDOUT"

/-- Without faults the recording is published. -/
theorem recording_noLitter :
    (publish sampleDeployment recordingRun (fun _ => some [1]) noFaults 0 [recordingFile] none 0
      recordingWorld).2 = .ok () ∧
    NoLitter sampleDeployment recordingRun [recordingFile] recordingWorld
      (publish sampleDeployment recordingRun (fun _ => some [1]) noFaults 0 [recordingFile] none 0
        recordingWorld) := by
  have never : ¬ LatePut (fun _ => some [1]) noFaults 0 [] [recordingFile] := by
    simp [LatePut, noFaults]
  have oneName : OneName [recordingFile] := by
    simp [OneName]
  exact ⟨rfl, (publish_noLitter_iff sampleDeployment recordingRun _ noFaults 0 [recordingFile]
    none 0 recordingWorld (fun _ => rfl) ⟨rfl, by decide⟩).mpr ⟨never, fun _ => oneName⟩⟩

/-- The upload writes the object, its stat fails, and the object stays. -/
theorem recording_litter :
    ¬ NoLitter sampleDeployment recordingRun [recordingFile] recordingWorld
      (publish sampleDeployment recordingRun (fun _ => some [1])
        { noFaults with put := fun _ => .unacknowledged } 0 [recordingFile] none 0
        recordingWorld) := by
  intro noLitter
  rcases noLitter.temporary recordingFile List.mem_cons_self with gone | ⟨unwritten, _⟩
  · exact absurd gone (by decide)
  · exact absurd unwritten (by decide)

end Outcome

end PostsMedia.Publishing
