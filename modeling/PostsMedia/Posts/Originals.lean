import PostsMedia.Library.Segments
import PostsMedia.Posts.Promotion

namespace PostsMedia.Promotion

variable {intake : Intake} {s t : State} {r r' : Nat}

/-- Staging keys and original keys start differently. -/
theorem stagingRef_ne_originalRef {file file' : ValidatedFile intake.sha256} {index : Nat} :
    intake.stagingRef r file ≠ intake.originalRef r' index file' := by
  intro keys
  have texts := congrArg (fun ref => ref.objectKey.toList) keys
  simp [Intake.stagingRef, Intake.originalRef, StorageBuckets.uploadStagingKey,
    StorageBuckets.originalKey] at texts

/-- The key of an original determines its request and its upload. -/
theorem originalRef_inj {file file' : ValidatedFile intake.sha256} {index index' : Nat}
    (keys : intake.originalRef r index file = intake.originalRef r' index' file') :
    r = r' ∧ index = index' := by
  have texts := congrArg (fun ref => ref.objectKey.toList) keys
  simp only [Intake.originalRef, StorageBuckets.originalKey, String.toList_append,
    List.append_assoc, List.append_cancel_left_eq] at texts
  obtain ⟨_, tails⟩ :=
    Segments.split_inj (intake.postId_plain r) (intake.postId_plain r') texts
  obtain ⟨ids, _⟩ := Segments.split_inj (intake.mediaUuid_plain r index)
    (intake.mediaUuid_plain r' index') tails
  exact intake.mediaUuid_injective r index r' index' (String.toList_inj.mp ids)

/-- The first originals are promoted and hold the bytes of their files. -/
structure Promoted (intake : Intake) (objects : ObjectRef → Option Bytes) (r count : Nat)
    (promoted : List ObjectRef) : Prop where
  length : promoted.length = count
  stored : ∀ index ref, promoted[index]? = some ref → ∃ file,
    (intake.files r)[index]? = some file ∧ ref = intake.originalRef r index file ∧
      objects ref = some file.content

/-- The objects of a request agree with its program point. -/
def Progressing (intake : Intake) (objects : ObjectRef → Option Bytes) (r : Nat) : Phase → Prop
  | .staging index promoted => Promoted intake objects r index promoted
  | .copying index promoted => Promoted intake objects r index promoted ∧
      ∀ file, (intake.files r)[index]? = some file → ∀ content,
        objects (intake.stagingRef r file) = some content → content = file.content
  | .unstaging index promoted failed =>
      Promoted intake objects r (if failed then index else index + 1) promoted
  | .committing promoted => Promoted intake objects r promoted.length promoted
  | .compensating refs => ∀ ref ∈ refs, ∃ index file, ref = intake.originalRef r index file
  | _ => True

/-- The original of a row is stored with the bytes of the upload that the row was validated from. -/
structure Matches (intake : Intake) (objects : ObjectRef → Option Bytes) (r index : Nat)
    (media : Media) (file : ValidatedFile intake.sha256) : Prop where
  submitted : (intake.files r)[index]? = some file
  id : media.id = intake.mediaUuid r index
  original : (⟨media.originalBucket, media.originalObjectKey⟩ : ObjectRef) =
    intake.originalRef r index file
  stored : objects ⟨media.originalBucket, media.originalObjectKey⟩ = some file.content
  size : media.originalSize = file.content.length
  checksum : media.checksumSha256 = intake.sha256 file.content

/-- Every request agrees with the objects, and every row belongs to a request that has ended. -/
structure Sound (intake : Intake) (s : State) : Prop where
  requests : ∀ r, Progressing intake s.objects r (s.requests r)
  rows : ∀ media ∈ s.tables.media, ∃ r index file, s.requests r = .ended ∧
    Matches intake s.objects r index media file

/-- A request stages its bytes only while no other request has other bytes between its own put and
copy under the same staging key, and it hears of every commit that takes effect. -/
def ExclusiveStaging (intake : Intake) (s : State) : Event → Prop
  | .put r _ => ∀ index promoted file, s.requests r = .staging index promoted →
      (intake.files r)[index]? = some file →
      ∀ r' index' promoted' file', r' ≠ r → s.requests r' = .copying index' promoted' →
        (intake.files r')[index']? = some file' →
        intake.stagingRef r' file' = intake.stagingRef r file → file'.content = file.content
  | .commit _ fate => fate ≠ .unacknowledged
  | _ => True

/-- Both storages hold the same originals of a request. -/
def SameOriginals (intake : Intake) (r : Nat) (before after : ObjectRef → Option Bytes) : Prop :=
  ∀ index file, after (intake.originalRef r index file) = before (intake.originalRef r index file)

section Frames

variable {before after : ObjectRef → Option Bytes} {count index : Nat} {promoted : List ObjectRef}
variable {media : Media} {file : ValidatedFile intake.sha256} {content : Option Bytes}

theorem Promoted.frame (holds : Promoted intake before r count promoted)
    (same : SameOriginals intake r before after) : Promoted intake after r count promoted where
  length := holds.length
  stored index ref present := by
    obtain ⟨file, submitted, rfl, stored⟩ := holds.stored index ref present
    exact ⟨file, submitted, rfl, (same index file).trans stored⟩

theorem Matches.frame (holds : Matches intake before r index media file)
    (same : SameOriginals intake r before after) : Matches intake after r index media file :=
  { holds with
    stored := by
      have stored := holds.stored
      rw [holds.original] at stored ⊢
      exact (same index file).trans stored }

/-- A request keeps its progress when nobody touches its originals and nobody stages other bytes
for it. -/
theorem Progressing.frame {phase : Phase} (progressing : Progressing intake before r phase)
    (same : SameOriginals intake r before after)
    (staged : ∀ index promoted file, phase = .copying index promoted →
      (intake.files r)[index]? = some file → ∀ content,
        after (intake.stagingRef r file) = some content →
          before (intake.stagingRef r file) = some content ∨ content = file.content) :
    Progressing intake after r phase := by
  cases phase with
  | idle | ended | compensating => exact progressing
  | staging | unstaging | committing => exact Promoted.frame progressing same
  | copying index promoted =>
      obtain ⟨holds, own⟩ := progressing
      refine ⟨holds.frame same, fun file submitted content present => ?_⟩
      rcases staged index promoted file rfl submitted content present with kept | own'
      · exact own file submitted content kept
      · exact own'

/-- A write to a staging key touches no original. -/
theorem sameOriginals_staging :
    SameOriginals intake r before (Function.update before (intake.stagingRef r' file) content) :=
  fun _ _ => Function.update_of_ne stagingRef_ne_originalRef.symm _ _

/-- A write to an original touches no original of another request. -/
theorem sameOriginals_original (away : r ≠ r') :
    SameOriginals intake r before
      (Function.update before (intake.originalRef r' index file) content) :=
  fun _ _ => Function.update_of_ne (fun keys => away (originalRef_inj keys).1) _ _

/-- The loop goes on or the transaction starts with the same originals. -/
theorem progressing_next (holds : Promoted intake before r count promoted) :
    Progressing intake before r (nextUpload intake r count promoted) := by
  unfold nextUpload
  split
  · exact holds
  · have same := holds.length
    subst same
    exact holds

/-- The compensation concerns only originals of its request. -/
theorem Promoted.compensating (holds : Promoted intake before r count promoted)
    {objects : ObjectRef → Option Bytes} :
    Progressing intake objects r (.compensating promoted) := by
  intro ref member
  obtain ⟨index, inside, here⟩ := List.getElem_of_mem member
  have present : promoted[index]? = some ref := by rw [List.getElem?_eq_getElem inside, here]
  obtain ⟨file, _, same, _⟩ := holds.stored index ref present
  exact ⟨index, file, same⟩

/-- A copied original is the next promoted one. -/
theorem Promoted.push (holds : Promoted intake before r index promoted)
    (submitted : (intake.files r)[index]? = some file) :
    Promoted intake
      (Function.update before (intake.originalRef r index file) (some file.content)) r (index + 1)
      (promoted ++ [intake.originalRef r index file]) where
  length := by simp [holds.length]
  stored position ref present := by
    by_cases earlier : position < promoted.length
    · rw [List.getElem?_append_left earlier] at present
      obtain ⟨other, found, rfl, stored⟩ := holds.stored position ref present
      refine ⟨other, found, rfl, ?_⟩
      rw [Function.update_of_ne, stored]
      intro keys
      have same := (originalRef_inj keys).2
      have short := holds.length
      omega
    · rw [List.getElem?_append_right (Nat.le_of_not_lt earlier)] at present
      have last : position - promoted.length = 0 := by
        have inside := (List.getElem?_eq_some_iff.mp present).1
        simpa using inside
      have here : position = index := by
        have short := holds.length
        omega
      subst here
      rw [last] at present
      obtain rfl := Option.some.inj present
      exact ⟨file, submitted, rfl, Function.update_self ..⟩

/-- Without the last original the earlier ones are still promoted. -/
theorem Promoted.earlier {ref : ObjectRef}
    (holds : Promoted intake before r (count + 1) (promoted ++ [ref])) :
    Promoted intake before r count promoted where
  length := by simpa using holds.length
  stored index found present := by
    apply holds.stored index found
    have inside := (List.getElem?_eq_some_iff.mp present).1
    rw [List.getElem?_append_left inside, present]

end Frames

/-- An event of one request that writes no rows keeps the state sound. -/
theorem Sound.move (sound : Sound intake s) (working : s.requests r ≠ .ended)
    (tables : t.tables = s.tables) (others : ∀ r', r' ≠ r → t.requests r' = s.requests r')
    (own : Progressing intake t.objects r (t.requests r))
    (same : ∀ r', r' ≠ r → SameOriginals intake r' s.objects t.objects)
    (staged : ∀ r', r' ≠ r → ∀ index promoted file, s.requests r' = .copying index promoted →
      (intake.files r')[index]? = some file → ∀ content,
        t.objects (intake.stagingRef r' file) = some content →
          s.objects (intake.stagingRef r' file) = some content ∨ content = file.content) :
    Sound intake t where
  requests r' := by
    by_cases mine : r' = r
    · subst mine
      exact own
    · rw [others r' mine]
      exact (sound.requests r').frame (same r' mine) (staged r' mine)
  rows media member := by
    rw [tables] at member
    obtain ⟨owner, index, file, finished, holds⟩ := sound.rows media member
    have away : owner ≠ r := by
      intro mine
      exact working (mine ▸ finished)
    exact ⟨owner, index, file, (others owner away).trans finished, holds.frame (same owner away)⟩

/-- A move that touches no object keeps the state sound. -/
theorem Sound.goto (sound : Sound intake s) (working : s.requests r ≠ .ended) {phase : Phase}
    (own : Progressing intake s.objects r phase) : Sound intake (s.goto r phase) :=
  sound.move working rfl (fun _ away => Function.update_of_ne away _ _)
    (by simpa only [State.goto, Function.update_self] using own) (fun _ _ _ _ => rfl)
    fun _ _ _ _ _ _ _ _ present => .inl present

/-- A removed object is no staged content of another request. -/
theorem Sound.removing (sound : Sound intake s) (working : s.requests r ≠ .ended) {phase : Phase}
    {ref : ObjectRef} (own : Progressing intake (Function.update s.objects ref none) r phase)
    (same : ∀ r', r' ≠ r → SameOriginals intake r' s.objects (Function.update s.objects ref none)) :
    Sound intake (s.storing r ref none phase) := by
  refine sound.move working rfl (fun _ away => Function.update_of_ne away _ _)
    (by simpa only [State.storing, Function.update_self] using own) same ?_
  intro r' away index promoted file copying submitted content present
  refine .inl ?_
  simp only [State.storing] at present
  by_cases here : intake.stagingRef r' file = ref
  · rw [here, Function.update_self] at present
    cases present
  · rwa [Function.update_of_ne here] at present

/-- Every row of a transaction comes from one of its uploads. -/
theorem createAllWithDispatch_mem {postId : String} {start : Nat} {uploads : List PromotedUpload}
    {media : Media}
    (member : media ∈ (createAllWithDispatch postId start uploads).map Prod.fst) :
    ∃ upload ∈ uploads, ∃ sortOrder,
      media = (createWithDispatch (upload.input postId sortOrder)).1 := by
  obtain ⟨created, inside, rfl⟩ := List.mem_map.mp member
  obtain ⟨⟨upload, index⟩, indexed, rfl⟩ := List.mem_map.mp inside
  obtain ⟨_, _, same⟩ := List.mem_zipIdx indexed
  exact ⟨upload, same ▸ List.getElem_mem _, start + index, rfl⟩

/-- Every upload of a transaction pairs a file with its original. -/
theorem promotedUploads_mem {promoted : List ObjectRef} {upload : PromotedUpload}
    (member : upload ∈ intake.promotedUploads r promoted) : ∃ index file ref,
      (intake.files r)[index]? = some file ∧ promoted[index]? = some ref ∧
        upload = ⟨file.upload, intake.mediaUuid r index, intake.dispatchUuid r index, ref⟩ := by
  obtain ⟨⟨⟨file, ref⟩, index⟩, indexed, rfl⟩ := List.mem_map.mp member
  have paired := List.mk_mem_zipIdx_iff_getElem?.mp indexed
  rw [List.getElem?_zip_eq_some] at paired
  exact ⟨index, file, ref, paired.1, paired.2, rfl⟩

/-- The transaction adds only rows of its own uploads. -/
theorem transaction_rows {promoted : List ObjectRef} {tables after : Tables}
    (committed : intake.transaction r promoted tables = some after) {media : Media}
    (member : media ∈ after.media) : media ∈ tables.media ∨
      ∃ upload ∈ intake.promotedUploads r promoted, ∃ postId sortOrder,
        media = (createWithDispatch (upload.input postId sortOrder)).1 := by
  have new (postId : String) (start : Nat) (posts : List Post)
      (inserted : media ∈ (tables.insert posts
        (createAllWithDispatch postId start (intake.promotedUploads r promoted))).media) :
      media ∈ tables.media ∨ ∃ upload ∈ intake.promotedUploads r promoted, ∃ postId sortOrder,
        media = (createWithDispatch (upload.input postId sortOrder)).1 := by
    rcases List.mem_append.mp inserted with old | created
    · exact .inl old
    · obtain ⟨upload, present, sortOrder, same⟩ := createAllWithDispatch_mem created
      exact .inr ⟨upload, present, postId, sortOrder, same⟩
  unfold Intake.transaction at committed
  split at committed
  · simp only [createPostTransaction, Option.map_some, Option.some.injEq] at committed
    subst committed
    exact new _ _ _ member
  · simp only [addPostMediaTransaction] at committed
    split at committed
    · simp only [Option.map_some, Option.some.injEq] at committed
      subst committed
      exact new _ _ _ member
    · cases committed

/-- The commit of a request adds rows that match its promoted originals. -/
theorem Sound.commit (sound : Sound intake s) {promoted : List ObjectRef} {tables : Tables}
    (started : s.requests r = .committing promoted)
    (committed : intake.transaction r promoted s.tables = some tables) :
    Sound intake (s.writing r tables .ended) := by
  have own : Promoted intake s.objects r promoted.length promoted := by
    have progressing := sound.requests r
    rwa [started] at progressing
  constructor
  · intro r'
    by_cases mine : r' = r
    · subst mine
      simp only [State.writing, Function.update_self]
      trivial
    · simpa only [State.writing, Function.update_of_ne mine] using sound.requests r'
  · intro media member
    rcases transaction_rows committed member with old | ⟨upload, new, postId, sortOrder, rfl⟩
    · obtain ⟨owner, index, file, finished, holds⟩ := sound.rows media old
      have away : owner ≠ r := by
        intro mine
        rw [mine, started] at finished
        cases finished
      refine ⟨owner, index, file, ?_, holds⟩
      simpa only [State.writing, Function.update_of_ne away] using finished
    · obtain ⟨index, file, ref, submitted, promotedAt, rfl⟩ := promotedUploads_mem new
      obtain ⟨other, found, original, stored⟩ := own.stored index ref promotedAt
      rw [submitted] at found
      cases found
      refine ⟨r, index, file, by simp [State.writing], ?_⟩
      exact ⟨submitted, rfl, original, stored, file.size, file.checksum⟩

/-- A request at its program point agrees with the objects. -/
theorem Sound.progressing (sound : Sound intake s) {phase : Phase}
    (started : s.requests r = phase) : Progressing intake s.objects r phase := by
  rw [← started]
  exact sound.requests r

/-- An admitted put keeps the state sound wherever it leads. Another request under the same staging
key finds its own bytes there. -/
theorem Sound.staging (sound : Sound intake s) {index : Nat} {promoted : List ObjectRef}
    {file : ValidatedFile intake.sha256} {fate : Fate}
    (admitted : ExclusiveStaging intake s (.put r fate))
    (started : s.requests r = .staging index promoted)
    (submitted : (intake.files r)[index]? = some file) {phase : Phase}
    (own : Progressing intake
      (Function.update s.objects (intake.stagingRef r file) (some file.content)) r phase) :
    Sound intake (s.storing r (intake.stagingRef r file) (some file.content) phase) := by
  refine sound.move (by simp [started]) rfl (fun _ away => Function.update_of_ne away _ _)
    (by simpa only [State.storing, Function.update_self] using own)
    (fun _ _ => sameOriginals_staging) ?_
  intro r' away index' promoted' file' copying submitted' content present
  simp only [State.storing] at present
  by_cases same : intake.stagingRef r' file' = intake.stagingRef r file
  · have exclusive := admitted index promoted file started submitted r' index' promoted' file' away
      copying submitted' same
    rw [same, Function.update_self] at present
    obtain rfl := Option.some.inj present
    exact .inr exclusive.symm
  · rw [Function.update_of_ne same] at present
    exact .inl present

theorem sound_put (sound : Sound intake s) {fate : Fate}
    (admitted : ExclusiveStaging intake s (.put r fate))
    (taken : stepPut intake s r fate = some t) : Sound intake t := by
  unfold stepPut at taken
  split at taken
  · rename_i index promoted started
    obtain ⟨file, submitted, rfl⟩ := Option.map_eq_some_iff.mp taken
    have own : Promoted intake s.objects r index promoted := sound.progressing started
    cases fate with
    | ok =>
        apply sound.staging admitted started submitted
        refine ⟨own.frame sameOriginals_staging, fun other found content present => ?_⟩
        rw [submitted] at found
        obtain rfl := Option.some.inj found
        rw [Function.update_self] at present
        exact (Option.some.inj present).symm
    | unacknowledged => exact sound.staging admitted started submitted own.compensating
    | refused => exact sound.goto (by simp [started]) own.compensating
  · cases taken

/-- A copy keeps the state sound wherever it leads. -/
theorem Sound.copying (sound : Sound intake s) (working : s.requests r ≠ .ended) {index : Nat}
    {file : ValidatedFile intake.sha256} {content : Option Bytes} {phase : Phase}
    (own : Progressing intake
      (Function.update s.objects (intake.originalRef r index file) content) r phase) :
    Sound intake (s.storing r (intake.originalRef r index file) content phase) := by
  refine sound.move working rfl (fun _ away => Function.update_of_ne away _ _)
    (by simpa only [State.storing, Function.update_self] using own)
    (fun _ away => sameOriginals_original away) ?_
  intro r' _ index' promoted' file' _ _ content' present
  simp only [State.storing] at present
  rw [Function.update_of_ne stagingRef_ne_originalRef] at present
  exact .inl present

theorem sound_copy (sound : Sound intake s) {fate : Fate}
    (taken : stepCopy intake s r fate = some t) : Sound intake t := by
  unfold stepCopy at taken
  split at taken
  · rename_i index promoted started
    obtain ⟨file, submitted, rfl⟩ := Option.map_eq_some_iff.mp taken
    have working : s.requests r ≠ .ended := by simp [started]
    obtain ⟨own, staged⟩ := sound.progressing started
    have failed : Progressing intake s.objects r (.unstaging index promoted true) := own
    cases source : s.objects (intake.stagingRef r file) with
    | none => exact sound.goto working failed
    | some content =>
        obtain rfl : content = file.content := staged file submitted content source
        have pushed := own.push submitted
        cases fate with
        | ok => exact sound.copying working pushed
        | unacknowledged => exact sound.copying working pushed.earlier
        | refused => exact sound.goto working failed
  · cases taken

theorem sound_unstage (sound : Sound intake s) {removed : Bool}
    (taken : stepUnstage intake s r removed = some t) : Sound intake t := by
  unfold stepUnstage at taken
  split at taken
  · rename_i index promoted failed started
    obtain ⟨file, submitted, rfl⟩ := Option.map_eq_some_iff.mp taken
    have working : s.requests r ≠ .ended := by simp [started]
    have own : Promoted intake s.objects r (if failed then index else index + 1) promoted :=
      sound.progressing started
    have next (objects : ObjectRef → Option Bytes)
        (same : SameOriginals intake r s.objects objects) : Progressing intake objects r
          (if failed then .compensating promoted
            else nextUpload intake r (index + 1) promoted) := by
      cases failed with
      | true => exact own.compensating
      | false => exact progressing_next (own.frame same)
    cases removed with
    | true =>
        apply sound.removing working (next _ sameOriginals_staging)
        exact fun _ _ => sameOriginals_staging
    | false => exact sound.goto working (next _ fun _ _ => rfl)
  · cases taken

theorem sound_commit (sound : Sound intake s) {fate : Fate}
    (admitted : ExclusiveStaging intake s (.commit r fate))
    (taken : stepCommit intake s r fate = some t) : Sound intake t := by
  unfold stepCommit at taken
  split at taken
  · rename_i promoted started
    have own : Promoted intake s.objects r promoted.length promoted := sound.progressing started
    split at taken <;> cases taken
    · exact sound.commit started ‹_›
    · exact absurd rfl admitted
    · exact sound.goto (by simp [started]) own.compensating
  · cases taken

theorem sound_compensate (sound : Sound intake s) {removed : Bool}
    (taken : stepCompensate s r removed = some t) : Sound intake t := by
  unfold stepCompensate at taken
  split at taken
  · rename_i ref rest started
    cases taken
    have working : s.requests r ≠ .ended := by simp [started]
    have own : Progressing intake s.objects r (.compensating (ref :: rest)) :=
      sound.progressing started
    have fewer : ∀ other ∈ rest, ∃ index file, other = intake.originalRef r index file :=
      fun other member => own other (List.mem_cons_of_mem _ member)
    cases removed with
    | true =>
        obtain ⟨index, file, rfl⟩ := own ref List.mem_cons_self
        exact sound.removing working fewer fun _ away => sameOriginals_original away
    | false => exact sound.goto working fewer
  · rename_i started
    cases taken
    exact sound.goto (by simp [started]) trivial
  · cases taken

/-- Every admitted event keeps the state sound. -/
theorem sound_step {event : Event} (sound : Sound intake s)
    (admitted : ExclusiveStaging intake s event) (taken : step intake s event = some t) :
    Sound intake t := by
  cases event with
  | arrive r =>
      simp only [step] at taken
      split at taken
      · rename_i idle
        cases taken
        have nothing : Promoted intake s.objects r 0 [] := ⟨rfl, by simp⟩
        exact sound.goto (by simp [idle]) (progressing_next nothing)
      · cases taken
  | put r fate => exact sound_put sound admitted taken
  | copy r fate => exact sound_copy sound taken
  | unstage r removed => exact sound_unstage sound taken
  | commit r fate => exact sound_commit sound admitted taken
  | compensate r removed => exact sound_compensate sound taken
  | crash r =>
      simp only [step] at taken
      split at taken
      · cases taken
      · cases taken
        by_cases finished : s.requests r = .ended
        · have same : s.goto r .ended = s := by
            simp [State.goto, ← finished]
          rwa [same]
        · exact sound.goto finished trivial

/-- Every reachable state of an admitted run is sound. -/
theorem sound_of_reachable (reached : (machine intake).Reachable (ExclusiveStaging intake) s) :
    Sound intake s := by
  refine reached.invariant ?_ fun _ _ _ admitted taken sound => sound_step sound admitted taken
  intro s initial
  obtain ⟨rows, idle⟩ := initial
  refine ⟨fun r => ?_, by simp [rows]⟩
  rw [idle r]
  trivial

/-- In the admitted runs each row has the original that it was validated from. -/
def OriginalsMatch (intake : Intake) (guard : State → Event → Prop) : Prop :=
  ∀ s, (machine intake).Reachable guard s → ∀ media ∈ s.tables.media,
    ∃ r index file, Matches intake s.objects r index media file

/-- Stored originals match their rows while no two requests mix under one staging key. -/
theorem promotion_originalsMatch (intake : Intake) :
    OriginalsMatch intake (ExclusiveStaging intake) := by
  intro s reached media member
  obtain ⟨r, index, file, _, holds⟩ := (sound_of_reachable reached).rows media member
  exact ⟨r, index, file, holds⟩

/-- Requests without a common request id never share a staging key. -/
theorem stagingRef_inj {file : ValidatedFile intake.sha256} {file' : ValidatedFile intake.sha256}
    (plain : ∀ r, '/' ∉ (intake.requestId r).toList)
    (keys : intake.stagingRef r file = intake.stagingRef r' file') :
    intake.requestId r = intake.requestId r' := by
  have texts := congrArg (fun ref => ref.objectKey.toList) keys
  simp only [Intake.stagingRef, StorageBuckets.uploadStagingKey, String.toList_append,
    List.append_assoc, List.append_cancel_left_eq] at texts
  exact String.toList_inj.mp (Segments.split_inj (plain r) (plain r') texts).1

/-- A request id is a segment when the drawn UUIDs are. -/
theorem requestId_plain (uuids : ∀ r, '/' ∉ (intake.requestUuid r).toList) (r : Nat) :
    '/' ∉ (intake.requestId r).toList := by
  unfold Intake.requestId assignRequestId
  split
  · split
    · rename_i text safe
      intro member
      simp only [safeRequestId, Bool.and_eq_true, List.all_eq_true] at safe
      exact absurd (safe.2 '/' member) (by decide)
    · exact uuids r
  · exact uuids r

/-- A request may stage at any time when no other request has its request id. -/
theorem exclusiveStaging_of_distinct (uuids : ∀ r, '/' ∉ (intake.requestUuid r).toList)
    (distinct : ∀ r r', intake.requestId r = intake.requestId r' → r = r') (r : Nat) (fate : Fate) :
    ExclusiveStaging intake s (.put r fate) := by
  intro index promoted file _ _ r' index' promoted' file' away _ _ keys
  exact absurd (distinct r' r (stagingRef_inj (requestId_plain uuids) keys)) away

/-- The runs without any fault. -/
def Faultless (_ : State) : Event → Prop
  | .arrive _ => True
  | .put _ fate | .copy _ fate | .commit _ fate => fate = .ok
  | .unstage _ removed | .compensate _ removed => removed = true
  | .crash _ => False

instance (s : State) (event : Event) : Decidable (Faultless s event) := by
  rcases event <;> unfold Faultless <;> infer_instance

/-- One validated image with the given bytes. -/
def imageFile (content : Bytes) : ValidatedFile fun bytes => toString bytes.length where
  upload :=
    { fileIndex := 0
      originalFilename := "photo.png"
      extension := "png"
      declaredMimeType := "image/png"
      detectedMimeType := "image/png"
      detectedFormat := "png"
      mediaType := .image
      sizeBytes := content.length
      checksumSha256 := toString content.length
      preliminaryMetadata := .null }
  content := content
  size := rfl
  checksum := rfl

def imagePost (id : String) : Post where
  id := id
  title := "Title"
  content := ""
  createdAt := 0
  updatedAt := 0

/-- Two clients create posts with one image each. The other requests have no files. -/
def imagePosts (header : Option String) : Intake where
  buckets := ⟨"originals", "processed", "temporary"⟩
  sha256 bytes := toString bytes.length
  submission
    | 0 => ⟨header, .createPost (imagePost "post-0"), [imageFile [1]]⟩
    | 1 => ⟨header, .createPost (imagePost "post-1"), [imageFile [2, 2]]⟩
    | _ => ⟨header, .addPostMedia "post-0", []⟩
  requestUuid r := String.ofList (List.replicate (r + 1) 'a')
  mediaUuid r index := String.ofList (List.replicate r 'a' ++ 'b' :: List.replicate index 'a')
  dispatchUuid _ _ := "dispatch"
  presentPost post _ := .str post.id
  presentAdded _ := .null
  postId_plain
    | 0 => by simp [Target.postId, imagePost]
    | 1 => by simp [Target.postId, imagePost]
    | _ + 2 => by simp [Target.postId]
  mediaUuid_plain r index := by simp
  mediaUuid_injective r index r' index' same := by
    have lists := congrArg String.toList same
    simp only [String.toList_ofList] at lists
    obtain ⟨first, second⟩ := Segments.split_inj (by simp) (by simp) lists
    have lengths := congrArg List.length first
    have lengths' := congrArg List.length second
    simp only [List.length_replicate] at lengths lengths'
    exact ⟨lengths, lengths'⟩

/-- Empty tables and an empty object storage. -/
def emptyStart : State := ⟨fun _ => none, ⟨[], [], []⟩, fun _ => .idle⟩

theorem emptyStart_initial (intake : Intake) : (machine intake).initial emptyStart :=
  ⟨rfl, fun _ => rfl⟩

/-- Both clients put their image before either is copied. -/
def mixedUploads : List Event :=
  [.arrive 0, .arrive 1, .put 0 .ok, .put 1 .ok, .copy 0 .ok, .unstage 0 true, .commit 0 .ok]

/-- Without a header the requests have ids of their own. -/
theorem exclusiveStaging_of_faultless (s : State) (event : Event) (faultless : Faultless s event) :
    ExclusiveStaging (imagePosts none) s event := by
  have distinct (r r' : Nat)
      (same : (imagePosts none).requestId r = (imagePosts none).requestId r') : r = r' := by
    have headers (r : Nat) : (imagePosts none).requestId r =
        String.ofList (List.replicate (r + 1) 'a') := by
      rcases r with _ | _ | r <;> rfl
    rw [headers, headers] at same
    have lengths := congrArg String.length same
    simpa using lengths
  cases event with
  | put r fate =>
      exact exclusiveStaging_of_distinct (fun r => by simp [imagePosts]) distinct r fate
  | commit r fate =>
      have fine : fate = .ok := faultless
      simp [ExclusiveStaging, fine]
  | _ => trivial

/-- Two requests with ids of their own commit matching rows although their uploads interleave. -/
theorem imagePosts_match : ∃ s,
    (machine (imagePosts none)).Reachable (ExclusiveStaging (imagePosts none)) s ∧
      s.tables.media.length = 2 ∧ ∀ media ∈ s.tables.media, ∃ r index file,
        Matches (imagePosts none) s.objects r index media file := by
  obtain ⟨s, reached, observed⟩ := (machine (imagePosts none)).reachable_of_observed Faultless
    (fun s => s.tables.media.length) 2
    (mixedUploads ++ [.copy 1 .ok, .unstage 1 true, .commit 1 .ok]) (emptyStart_initial _)
    (by decide)
  have admitted := reached.mono exclusiveStaging_of_faultless
  exact ⟨s, admitted, observed, promotion_originalsMatch (imagePosts none) s admitted⟩

/-- Two clients that send the same request id mix their images. -/
theorem imagePosts_not_match : ¬ OriginalsMatch (imagePosts (some "client-1")) Faultless := by
  intro originals
  obtain ⟨s, reached, observed⟩ :=
    (machine (imagePosts (some "client-1"))).reachable_of_observed Faultless
      (fun s => s.tables.media.map fun media =>
        (media.originalSize, s.objects ⟨media.originalBucket, media.originalObjectKey⟩))
      [(1, some [2, 2])] mixedUploads (emptyStart_initial _) (by decide)
  obtain ⟨media, rest, split, mixed, _⟩ := List.map_eq_cons_iff.mp observed
  simp only [Prod.mk.injEq] at mixed
  obtain ⟨size, stored⟩ := mixed
  obtain ⟨r, index, file, holds⟩ := originals s reached media (by simp [split])
  have bytes := holds.stored
  have length := holds.size
  rw [stored] at bytes
  rw [size, ← Option.some.inj bytes] at length
  cases length

end PostsMedia.Promotion
