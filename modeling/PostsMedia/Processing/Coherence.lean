import PostsMedia.Processing.Statements

namespace PostsMedia.Processing

/-- The columns of a media row that nobody changes. -/
structure SameMedia (first second : Media) : Prop where
  id : first.id = second.id
  postId : first.postId = second.postId
  mediaType : first.mediaType = second.mediaType
  profile : first.processingProfile = second.processingProfile

theorem SameMedia.refl (media : Media) : SameMedia media media := ⟨rfl, rfl, rfl, rfl⟩

theorem SameMedia.trans {first second third : Media} (left : SameMedia first second)
    (right : SameMedia second third) : SameMedia first third :=
  ⟨left.id.trans right.id, left.postId.trans right.postId, left.mediaType.trans right.mediaType,
    left.profile.trans right.profile⟩

/-- What every statement keeps. Only the named execution may add an attempt, under its own name. -/
structure Progress (name : String) (before after : Rows) : Prop where
  same : SameMedia before.media after.media
  kept : ∀ attempt ∈ before.attempts, ∃ later ∈ after.attempts,
    later.id = attempt.id ∧ later.generation = attempt.generation
  named : ∀ attempt ∈ after.attempts,
    (∃ old ∈ before.attempts, old.id = attempt.id) ∨ attempt.id = name
  completed : before.media.processingStatus = .completed →
    after.media.processingStatus = .completed

theorem Progress.refl (name : String) (rows : Rows) : Progress name rows rows :=
  ⟨.refl _, fun attempt member => ⟨attempt, member, rfl, rfl⟩,
    fun attempt member => .inl ⟨attempt, member, rfl⟩, id⟩

/-- An update of attempts by id keeps their names. -/
theorem updateAttempt_ids (attempts : List ProcessingAttempt) (attemptId : String)
    (generation : Nat) (change : ProcessingAttempt → ProcessingAttempt)
    (names : ∀ attempt, (change attempt).id = attempt.id) :
    (updateAttempt attempts attemptId generation change).map (·.id) = attempts.map (·.id) := by
  rw [updateAttempt, List.map_map]
  apply List.map_congr_left
  intro attempt _
  simp only [Function.comp_apply]
  split
  · exact names attempt
  · rfl

/-- An update of attempts by id is progress for the attempts. -/
theorem updateAttempt_progress (attempts : List ProcessingAttempt) (attemptId : String)
    (generation : Nat) (change : ProcessingAttempt → ProcessingAttempt)
    (names : ∀ attempt, (change attempt).id = attempt.id)
    (generations : ∀ attempt, (change attempt).generation = attempt.generation) :
    (∀ attempt ∈ attempts, ∃ later ∈ updateAttempt attempts attemptId generation change,
      later.id = attempt.id ∧ later.generation = attempt.generation) ∧
    ∀ attempt ∈ updateAttempt attempts attemptId generation change,
      ∃ old ∈ attempts, old.id = attempt.id := by
  constructor
  · intro attempt member
    refine ⟨_, List.mem_map_of_mem member, ?_⟩
    split
    · exact ⟨names attempt, generations attempt⟩
    · exact ⟨rfl, rfl⟩
  · intro attempt member
    obtain ⟨old, present, rfl⟩ := List.mem_map.mp member
    refine ⟨old, present, ?_⟩
    split
    · exact (names old).symm
    · rfl

/-- A completed row without a lease keeps its status under every operation. -/
theorem unguarded_of_completed {rows : Rows} (leased : rows.media.Leased)
    (done : rows.media.processingStatus = .completed) (token : LeaseToken) :
    rows.media.processingLeaseToken ≠ some token := by
  intro stored
  have working := leased.token.mp (by simp [stored])
  simp [done] at working

/-- An operation that only updates attempts by id is progress. -/
theorem progress_update (name : String) {rows after : Rows} (attemptId : String)
    (generation : Nat) (change : ProcessingAttempt → ProcessingAttempt)
    (names : ∀ attempt, (change attempt).id = attempt.id)
    (generations : ∀ attempt, (change attempt).generation = attempt.generation)
    (same : SameMedia rows.media after.media)
    (attempts : after.attempts = updateAttempt rows.attempts attemptId generation change)
    (completed : rows.media.processingStatus = .completed →
      after.media.processingStatus = .completed) : Progress name rows after := by
  obtain ⟨kept, named⟩ :=
    updateAttempt_progress rows.attempts attemptId generation change names generations
  rw [← attempts] at kept named
  exact ⟨same, kept, fun attempt member => .inl (named attempt member), completed⟩

/-- Every operation under a lease is progress. -/
theorem progress_run (name : String) (operation : Operation) {rows : Rows}
    (leased : rows.media.Leased) (generation : Nat) (token : LeaseToken) (now : Time) :
    Progress name rows (operation.run rows generation token now).1 := by
  have completed (finished : rows.media.processingStatus = .completed) :
      (operation.run rows generation token now).1.media.processingStatus = .completed := by
    rw [operation.run_of_lost (unguarded_of_completed leased finished token)]
    exact finished
  cases operation with
  | renew leaseSeconds =>
      simp only [Operation.run] at completed ⊢
      split
      · rename_i matched
        rw [if_pos matched] at completed
        exact ⟨⟨rfl, rfl, rfl, rfl⟩, (Progress.refl name rows).kept,
          (Progress.refl name rows).named, completed⟩
      · exact .refl name rows
  | complete attemptId =>
      simp only [Operation.run] at completed ⊢
      split
      · rename_i matched
        rw [if_pos matched] at completed
        exact progress_update name attemptId generation (completeAttempt now) (fun _ => rfl)
          (fun _ => rfl) ⟨rfl, rfl, rfl, rfl⟩ rfl completed
      · exact .refl name rows
  | fail attemptId final errorCode errorMessage =>
      simp only [Operation.run] at completed ⊢
      split
      · rename_i matched
        rw [if_pos matched] at completed
        exact progress_update name attemptId generation (failAttempt errorCode errorMessage now)
          (fun _ => rfl) (fun _ => rfl) ⟨rfl, rfl, rfl, rfl⟩ rfl completed
      · exact .refl name rows
  | publish attemptId variants metadata =>
      simp only [Operation.run] at completed ⊢
      split
      · rename_i matched
        rw [if_pos matched] at completed
        exact progress_update name attemptId generation (completeAttempt now) (fun _ => rfl)
          (fun _ => rfl) ⟨rfl, rfl, rfl, rfl⟩ rfl completed
      · exact .refl name rows

/-- A claim is progress. It never matches a completed row. -/
theorem progress_claim (name : String) (rows : Rows) (generation : Nat) (jobId : String)
    (leaseSeconds : Nat) (token : LeaseToken) (now : Time) :
    Progress name rows (claim rows generation jobId leaseSeconds token now).1 := by
  simp only [claim]
  split
  · rename_i matched
    refine ⟨⟨rfl, rfl, rfl, rfl⟩, (Progress.refl name rows).kept, (Progress.refl name rows).named,
      ?_⟩
    intro finished
    simp [Media.claimable, finished] at matched
  · exact .refl name rows

/-- The upsert of an attempt returns a row with the generation of its caller. -/
theorem createAttempt_spec (rows : Rows) (created : ProcessingAttempt) :
    Progress created.id rows (createAttempt rows created).1 ∧
      (createAttempt rows created).1.media = rows.media ∧
      (createAttempt rows created).1.variants = rows.variants ∧
      (createAttempt rows created).2 ∈ (createAttempt rows created).1.attempts ∧
      (createAttempt rows created).2.generation = created.generation := by
  unfold createAttempt
  split
  · rename_i present found
    have member := List.mem_of_find?_eq_some found
    have matched := List.find?_some found
    simp only [Bool.and_eq_true, decide_eq_true_eq] at matched
    exact ⟨.refl _ rows, rfl, rfl, member, matched.1⟩
  · refine ⟨⟨.refl _, ?_, ?_, id⟩, rfl, rfl, by simp, rfl⟩
    · intro attempt member
      exact ⟨attempt, List.mem_append_left _ member, rfl, rfl⟩
    · intro attempt member
      rcases List.mem_append.mp member with old | new
      · exact .inl ⟨attempt, old, rfl⟩
      · exact .inr (by rw [List.mem_singleton.mp new])

/-- A retry is progress. It needs a failed row. -/
theorem progress_retry (name : String) {rows after : Rows} {id dispatchId : String}
    (retried : retry rows id dispatchId = some after) : Progress name rows after := by
  obtain ⟨_, failed, rfl⟩ := retry_spec retried
  refine ⟨⟨rfl, rfl, rfl, rfl⟩, (Progress.refl name rows).kept, (Progress.refl name rows).named, ?_⟩
  intro finished
  simp [failed] at finished

/-- The run of an execution between `createAttempt` and its end. -/
def Phase.run : Phase → Option Run
  | .preparing run | .downloading run | .handling run | .uploading run _ _ | .committing run _
  | .removing run _ _ | .completing run | .failing run _ => some run
  | _ => none

/-- The media row that the execution read back and has not used yet. -/
def Phase.snapshot : Phase → Option Media
  | .starting _ _ media => some media
  | _ => none

/-- The execution has not inserted an attempt yet. -/
def Phase.unnamed : Phase → Bool
  | .idle | .claiming .. | .reading .. | .starting .. => true
  | _ => false

/-- The handler has returned, so the publication took effect. -/
def Phase.published : Phase → Bool
  | .removing _ _ none | .completing _ => true
  | _ => false

/-- The objects that the loop has put and copied for the current artifact. -/
def UploadStage.puts : UploadStage → Nat
  | .put => 0
  | _ => 1

def UploadStage.copies : UploadStage → Nat
  | .put | .check => 0
  | _ => 1

/-- The lists of an upload after `count` artifacts, and the objects tracked beyond them. -/
structure Tracked (deployment : Deployment) (run : Run) (upload : Upload)
    (count puts copies : Nat) : Prop where
  pending : upload.pending = upload.artifacts.drop count
  temporary : upload.temporary = (upload.artifacts.take (count + puts)).map (tempRef deployment run)
  finals : upload.finals = (upload.artifacts.take (count + copies)).map (finalRef deployment run)
  variantTypes : (upload.artifacts.map (·.variantType)).Nodup
  filenames : (upload.artifacts.map (·.filename)).Nodup

/-- The upload of an execution with the objects that it tracks. -/
def Uploading (deployment : Deployment) : Phase → Prop
  | .uploading run upload stage =>
      upload.pending ≠ [] ∧ ∃ count, Tracked deployment run upload count stage.puts stage.copies
  | .committing run upload =>
      upload.pending = [] ∧ ∃ count, Tracked deployment run upload count 0 0
  | _ => True

/-- The local variables of an execution agree with the rows. -/
structure Coherent (deployment : Deployment) (rows : Rows) (x : ExecutionId) (phase : Phase) :
    Prop where
  snapshot : ∀ media, phase.snapshot = some media → SameMedia media rows.media
  same : ∀ run, phase.run = some run → SameMedia run.media rows.media
  attempt : ∀ run, phase.run = some run → ∃ attempt ∈ rows.attempts,
    attempt.id = run.attemptId ∧ attempt.generation = run.payload.generation
  unnamed : phase.unnamed = true →
    ∀ attempt ∈ rows.attempts, attempt.id ≠ deployment.attemptName x
  uploading : Uploading deployment phase
  published : phase.published = true → rows.media.processingStatus = .completed

section Coherent

variable {deployment : Deployment} {rows after : Rows} {x y : ExecutionId} {phase next : Phase}

/-- Progress of the rows keeps every other execution coherent. -/
theorem Coherent.progress (coherent : Coherent deployment rows y phase)
    (progress : Progress (deployment.attemptName x) rows after)
    (other : y ≠ x ∨ phase.unnamed = false) : Coherent deployment after y phase where
  snapshot media present := (coherent.snapshot media present).trans progress.same
  same run present := (coherent.same run present).trans progress.same
  attempt run present := by
    obtain ⟨attempt, member, id, generation⟩ := coherent.attempt run present
    obtain ⟨later, kept, sameId, sameGeneration⟩ := progress.kept attempt member
    exact ⟨later, kept, sameId.trans id, sameGeneration.trans generation⟩
  unnamed early := by
    have different : y ≠ x := other.resolve_right (by simp [early])
    intro attempt member
    rcases progress.named attempt member with ⟨old, present, same⟩ | named
    · rw [← same]
      exact coherent.unnamed early old present
    · rw [named]
      intro same
      exact different (deployment.attemptName_injective y x same.symm)
  uploading := coherent.uploading
  published done := progress.completed (coherent.published done)

/-- An execution that keeps its run stays coherent at its next program point. -/
theorem Coherent.goto (coherent : Coherent deployment rows x phase)
    (snapshot : next.snapshot = none) (run : ∀ run, next.run = some run → phase.run = some run)
    (named : next.unnamed = true → phase.unnamed = true) (uploading : Uploading deployment next)
    (published : next.published = true → phase.published = true) :
    Coherent deployment rows x next where
  snapshot media present := by simp [snapshot] at present
  same found present := coherent.same found (run found present)
  attempt found present := coherent.attempt found (run found present)
  unnamed early := coherent.unnamed (named early)
  uploading := uploading
  published done := coherent.published (published done)

/-- An execution with a run is coherent when its run agrees with the rows. -/
theorem coherent_run {run : Run} (holds : next.run = some run) (snapshot : next.snapshot = none)
    (named : next.unnamed = false) (same : SameMedia run.media rows.media)
    (attempt : ∃ attempt ∈ rows.attempts,
      attempt.id = run.attemptId ∧ attempt.generation = run.payload.generation)
    (uploading : Uploading deployment next)
    (published : next.published = true → rows.media.processingStatus = .completed) :
    Coherent deployment rows x next where
  snapshot media present := by simp [snapshot] at present
  same found present := by
    rw [holds] at present
    cases present
    exact same
  attempt found present := by
    rw [holds] at present
    cases present
    exact attempt
  unnamed early := by simp [named] at early
  uploading := uploading
  published := published

/-- An execution that has ended is coherent. -/
theorem coherent_ended (snapshot : next.snapshot = none) (run : next.run = none)
    (named : next.unnamed = false) (uploading : Uploading deployment next)
    (published : next.published = false) : Coherent deployment rows x next where
  snapshot media present := by simp [snapshot] at present
  same found present := by simp [run] at present
  attempt found present := by simp [run] at present
  unnamed early := by simp [named] at early
  uploading := uploading
  published done := by simp [published] at done

end Coherent

section Uploads

variable {deployment : Deployment} {run : Run} {upload : Upload} {count : Nat}
variable {artifact : ProcessedArtifact} {rest : List ProcessedArtifact}

/-- The current artifact follows the finished ones. -/
theorem Tracked.take_succ {puts copies : Nat}
    (tracked : Tracked deployment run upload count puts copies)
    (current : upload.pending = artifact :: rest) :
    upload.artifacts.take (count + 1) = upload.artifacts.take count ++ [artifact] ∧
      upload.artifacts.drop (count + 1) = rest := by
  have dropped : upload.artifacts.drop count = artifact :: rest :=
    tracked.pending.symm.trans current
  have inside : count < upload.artifacts.length := by
    by_cases short : count < upload.artifacts.length
    · exact short
    · rw [List.drop_eq_nil_of_le (Nat.le_of_not_lt short)] at dropped
      cases dropped
  rw [List.drop_eq_getElem_cons inside] at dropped
  obtain ⟨first, others⟩ := List.cons.inj dropped
  exact ⟨by rw [List.take_add_one, List.getElem?_eq_getElem inside, first]; rfl, others⟩

/-- A new upload has tracked nothing. -/
theorem tracked_start (result : HandlerResult) (files : String → Option Bytes) :
    Tracked deployment run (startUpload deployment run result files) 0 0 0 where
  pending := rfl
  temporary := rfl
  finals := rfl
  variantTypes := result.variantTypes_nodup _
  filenames := result.filenames_nodup _

/-- A put tracks one more temporary object. -/
theorem Tracked.put (tracked : Tracked deployment run upload count 0 0)
    (current : upload.pending = artifact :: rest) :
    Tracked deployment run
      { upload with temporary := upload.temporary ++ [tempRef deployment run artifact] }
      count 1 0 where
  pending := tracked.pending
  temporary := by
    have taken := (tracked.take_succ current).1
    simp [taken, tracked.temporary]
  finals := tracked.finals
  variantTypes := tracked.variantTypes
  filenames := tracked.filenames

/-- A checked object tracks its final key. -/
theorem Tracked.check (tracked : Tracked deployment run upload count 1 0)
    (current : upload.pending = artifact :: rest) :
    Tracked deployment run
      { upload with finals := upload.finals ++ [finalRef deployment run artifact] } count 1 1 where
  pending := tracked.pending
  temporary := tracked.temporary
  finals := by
    have taken := (tracked.take_succ current).1
    simp [taken, tracked.finals]
  variantTypes := tracked.variantTypes
  filenames := tracked.filenames

/-- A verified artifact is finished. -/
theorem Tracked.verify (tracked : Tracked deployment run upload count 1 1)
    (current : upload.pending = artifact :: rest) :
    Tracked deployment run { upload with pending := rest } (count + 1) 0 0 where
  pending := (tracked.take_succ current).2.symm
  temporary := tracked.temporary
  finals := tracked.finals
  variantTypes := tracked.variantTypes
  filenames := tracked.filenames

/-- The loop goes on or the transaction starts, with the same tracked objects. -/
theorem uploading_next (tracked : Tracked deployment run upload count 0 0) :
    Uploading deployment (nextUpload run upload) := by
  unfold nextUpload
  split
  · exact ⟨‹_›, count, tracked⟩
  · exact ⟨‹_›, count, tracked⟩

/-- An upload without pending artifacts has the final keys of all of them. -/
theorem Tracked.finished {puts copies : Nat}
    (tracked : Tracked deployment run upload count puts copies) (done : upload.pending = []) :
    upload.finals = upload.artifacts.map (finalRef deployment run) := by
  have dropped : upload.artifacts.drop count = [] := tracked.pending.symm.trans done
  have short := List.drop_eq_nil_iff.mp dropped
  rw [tracked.finals, List.take_of_length_le (by omega)]

end Uploads

end PostsMedia.Processing
