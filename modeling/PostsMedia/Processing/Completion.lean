import PostsMedia.Media.Repository
import PostsMedia.Processing.Coherence

namespace PostsMedia.Processing

variable {deployment : Deployment} {rows after : Rows} {publications : List Publication}

/-- The rows of a completed media come from one publication of its present generation. -/
structure PublishedBy (deployment : Deployment) (rows : Rows) (publication : Publication) :
    Prop where
  generation : publication.run.payload.generation = rows.media.processingGeneration
  same : SameMedia publication.run.media rows.media
  variants : variantRows deployment publication.run publication.upload.files
    publication.upload.artifacts
    (publication.upload.artifacts.map (finalRef deployment publication.run)) = some rows.variants
  variantTypes : (publication.upload.artifacts.map (·.variantType)).Nodup
  attempt : ∃ attempt, rows.attempts.filter (·.status = .completed) = [attempt] ∧
    attempt.id = publication.run.attemptId ∧
    attempt.generation = publication.run.payload.generation

/-- The rows of one media agree with the publications that took effect. -/
structure Settled (deployment : Deployment) (rows : Rows) (publications : List Publication) :
    Prop where
  leased : rows.media.Leased
  distinct : (rows.attempts.map (·.id)).Nodup
  unpublished : rows.media.processingStatus ≠ .completed →
    rows.variants = [] ∧ publications = [] ∧ ∀ attempt ∈ rows.attempts, attempt.status ≠ .completed
  published : rows.media.processingStatus = .completed →
    ∃ publication, publications = [publication] ∧ PublishedBy deployment rows publication

/-- An update by an id that its generation does not use changes nothing. -/
theorem updateAttempt_absent {attempts : List ProcessingAttempt} {attemptId : String}
    {generation : Nat} (change : ProcessingAttempt → ProcessingAttempt)
    (absent : ∀ attempt ∈ attempts, attempt.generation = generation → attempt.id ≠ attemptId) :
    updateAttempt attempts attemptId generation change = attempts := by
  rw [updateAttempt]
  conv => rhs; rw [← List.map_id attempts]
  apply List.map_congr_left
  intro attempt member
  exact if_neg fun same => absent attempt member same.2 same.1

theorem updateAttempt_cons (first : ProcessingAttempt) (rest : List ProcessingAttempt)
    (attemptId : String) (generation : Nat) (change : ProcessingAttempt → ProcessingAttempt) :
    updateAttempt (first :: rest) attemptId generation change =
      (if first.id = attemptId ∧ first.generation = generation then change first else first) ::
        updateAttempt rest attemptId generation change := rfl

/-- The completion of one attempt leaves it as the only completed one. -/
theorem filter_completeAttempt {attempts : List ProcessingAttempt} {attempt : ProcessingAttempt}
    (distinct : (attempts.map (·.id)).Nodup)
    (running : ∀ other ∈ attempts, other.status ≠ .completed) (member : attempt ∈ attempts)
    (now : Time) :
    (updateAttempt attempts attempt.id attempt.generation (completeAttempt now)).filter
      (·.status = .completed) = [completeAttempt now attempt] := by
  induction attempts with
  | nil => cases member
  | cons first rest ih =>
      have others : ∀ other ∈ rest, other.status ≠ .completed :=
        fun other later => running other (List.mem_cons_of_mem _ later)
      have single := running first (List.mem_cons_self ..)
      rw [List.map_cons, List.nodup_cons] at distinct
      obtain ⟨absent, distinct⟩ := distinct
      rw [updateAttempt_cons]
      rcases List.mem_cons.mp member with same | later
      · subst same
        have nobody : rest.filter (·.status = .completed) = [] := by
          simpa [List.filter_eq_nil_iff] using others
        have unnamed : ∀ other ∈ rest, other.generation = attempt.generation →
            other.id ≠ attempt.id := by
          intro other later _ same
          exact absent (same ▸ List.mem_map_of_mem later)
        rw [updateAttempt_absent _ unnamed, if_pos ⟨rfl, rfl⟩, List.filter_cons_of_pos (by rfl),
          nobody]
      · have different : first.id ≠ attempt.id := by
          intro same
          rw [same] at absent
          exact absent (List.mem_map_of_mem later)
        rw [if_neg (fun both => different both.1),
          List.filter_cons_of_neg (by simpa using single)]
        exact ih distinct others later

/-- The rows of the artifacts keep their variant types and their one media and profile. -/
theorem variantRows_keys {run : Run} {files : String → Option Bytes}
    {artifacts : List ProcessedArtifact} {finals : List ObjectRef} {variants : List MediaVariant}
    (built : variantRows deployment run files artifacts finals = some variants) :
    variants.map MediaVariant.key = artifacts.map fun artifact =>
      (run.media.id, run.media.processingProfile, artifact.variantType) := by
  induction artifacts generalizing finals variants with
  | nil =>
      cases built
      rfl
  | cons artifact artifacts ih =>
      cases finals with
      | nil => cases built
      | cons final finals =>
          simp only [variantRows, Option.bind_eq_some_iff, Option.map_eq_some_iff] at built
          obtain ⟨content, _, rest, others, rfl⟩ := built
          simp [ih others, MediaVariant.key, variantRow]

section Settled

variable {run : Run} {upload : Upload} {x : ExecutionId}

/-- A publication that finds its lease settles the rows on its own artifacts. -/
theorem Settled.publish (settled : Settled deployment rows publications)
    (matched : rows.media.guarded run.payload.generation x = true)
    (same : SameMedia run.media rows.media)
    (attempt : ∃ attempt ∈ rows.attempts,
      attempt.id = run.attemptId ∧ attempt.generation = run.payload.generation)
    (finals : upload.finals = upload.artifacts.map (finalRef deployment run))
    (types : (upload.artifacts.map (·.variantType)).Nodup) {variants : List MediaVariant}
    (built : variantRows deployment run upload.files upload.artifacts upload.finals = some variants)
    (now : Time) :
    Settled deployment
      ((Operation.publish run.attemptId variants upload.metadata).run rows
        run.payload.generation x now).1 (publications ++ [⟨x, run, upload⟩]) := by
  simp only [Media.guarded, Bool.and_eq_true, decide_eq_true_eq] at matched
  obtain ⟨generation, stored⟩ := matched
  have working := settled.leased.token.mp (by simp [stored])
  obtain ⟨none', nothing, running⟩ := settled.unpublished (by simp [working])
  obtain ⟨present, member, id, ofGeneration⟩ := attempt
  have distinct : (variants.map MediaVariant.key).Nodup := by
    rw [variantRows_keys built]
    have split : (upload.artifacts.map fun artifact =>
        (run.media.id, run.media.processingProfile, artifact.variantType)) =
        (upload.artifacts.map (·.variantType)).map fun variantType =>
          (run.media.id, run.media.processingProfile, variantType) := by
      simp [Function.comp_def]
    rw [split]
    refine List.Pairwise.map _ (fun first second different => ?_) types
    intro same
    exact different (by simpa using same)
  have added : upsertVariants rows.variants variants = variants := by
    rw [none', upsertVariants_append [] variants (by simp) distinct]
    rfl
  simp only [Operation.run, Media.guarded, generation, stored, decide_true, Bool.and_self,
    if_true]
  refine ⟨Media.completed_leased .., ?_, by simp [Media.completed], fun _ => ?_⟩
  · exact updateAttempt_ids rows.attempts _ _ (completeAttempt now) (fun _ => rfl) ▸
      settled.distinct
  · refine ⟨⟨x, run, upload⟩, by simp [nothing], ?_⟩
    refine ⟨generation.symm, ⟨same.id, same.postId, same.mediaType, same.profile⟩, ?_, types,
      completeAttempt now present, ?_, id, ofGeneration⟩
    · rw [← finals, built, added]
    · rw [← id, ← ofGeneration]
      exact filter_completeAttempt settled.distinct running member now

/-- A publication that took effect completed the media. -/
theorem Settled.completed_of_published (settled : Settled deployment rows publications)
    (some' : publications ≠ []) : rows.media.processingStatus = .completed := by
  by_cases done : rows.media.processingStatus = .completed
  · exact done
  · exact absurd (settled.unpublished done).2.1 some'

/-- Rows without a completed attempt stay settled while the media is not completed. -/
theorem Settled.reopen (settled : Settled deployment rows publications)
    (before : rows.media.processingStatus ≠ .completed) (leased : after.media.Leased)
    (distinct : (after.attempts.map (·.id)).Nodup)
    (status : after.media.processingStatus ≠ .completed) (variants : after.variants = rows.variants)
    (running : ∀ attempt ∈ after.attempts, attempt.status ≠ .completed) :
    Settled deployment after publications where
  leased := leased
  distinct := distinct
  unpublished _ := by
    obtain ⟨none', nothing, _⟩ := settled.unpublished before
    exact ⟨variants.trans none', nothing, running⟩
  published done := absurd done status

/-- A matching claim keeps the rows settled. -/
theorem Settled.claim (settled : Settled deployment rows publications) (generation : Nat)
    (jobId : String) (leaseSeconds : Nat) (token : LeaseToken) (now : Time) :
    Settled deployment (Processing.claim rows generation jobId leaseSeconds token now).1
      publications := by
  simp only [Processing.claim]
  split
  · rename_i matched
    have before : rows.media.processingStatus ≠ .completed := by
      intro done
      simp [Media.claimable, done] at matched
    exact settled.reopen before (Media.claimed_leased ..) settled.distinct
      (by simp [Media.claimed]) rfl (settled.unpublished before).2.2
  · exact settled

/-- A renewal keeps the rows settled. -/
theorem Settled.renew (settled : Settled deployment rows publications) (leaseSeconds : Nat)
    (generation : Nat) (token : LeaseToken) (now : Time) :
    Settled deployment ((Operation.renew leaseSeconds).run rows generation token now).1
      publications := by
  simp only [Operation.run]
  split
  · rename_i matched
    have leased := rows.media.renewed_leased settled.leased matched leaseSeconds now
    simp only [Media.renewable, Bool.and_eq_true, decide_eq_true_eq] at matched
    have before : rows.media.processingStatus ≠ .completed := by simp [matched.2]
    exact settled.reopen before leased settled.distinct before rfl (settled.unpublished before).2.2
  · exact settled

/-- A marked failure keeps the rows settled. -/
theorem Settled.fail (settled : Settled deployment rows publications) (attemptId : String)
    (final : Bool) (errorCode errorMessage : String) (generation : Nat) (token : LeaseToken)
    (now : Time) :
    Settled deployment
      ((Operation.fail attemptId final errorCode errorMessage).run rows generation token now).1
      publications := by
  simp only [Operation.run]
  split
  · rename_i matched
    simp only [Media.guarded, Bool.and_eq_true, decide_eq_true_eq] at matched
    have working := settled.leased.token.mp (by simp [matched.2])
    have before : rows.media.processingStatus ≠ .completed := by simp [working]
    refine settled.reopen before (Media.failed_leased ..) ?_ ?_ rfl ?_
    · exact updateAttempt_ids rows.attempts _ _ (failAttempt errorCode errorMessage now)
        (fun _ => rfl) ▸ settled.distinct
    · cases final <;> simp [Media.failed]
    · intro attempt member
      obtain ⟨old, present, rfl⟩ := List.mem_map.mp member
      split
      · simp [failAttempt]
      · exact (settled.unpublished before).2.2 old present
  · exact settled

/-- A new attempt keeps the rows settled. -/
theorem Settled.createAttempt (settled : Settled deployment rows publications)
    (created : ProcessingAttempt) (running : created.status ≠ .completed)
    (fresh : ∀ attempt ∈ rows.attempts, attempt.id ≠ created.id) :
    Settled deployment (Processing.createAttempt rows created).1 publications := by
  unfold Processing.createAttempt
  split
  · exact settled
  · have ids : ((rows.attempts ++ [created]).map (·.id)).Nodup := by
      rw [List.map_append, List.nodup_append]
      refine ⟨settled.distinct, by simp, ?_⟩
      intro first old second new same
      obtain ⟨attempt, member, rfl⟩ := List.mem_map.mp old
      simp only [List.map_cons, List.map_nil, List.mem_singleton] at new
      exact fresh attempt member (same.trans new)
    refine ⟨settled.leased, ids, ?_, ?_⟩
    · intro before
      obtain ⟨none', nothing, open'⟩ := settled.unpublished before
      refine ⟨none', nothing, fun attempt member => ?_⟩
      rcases List.mem_append.mp member with old | new
      · exact open' attempt old
      · rw [List.mem_singleton.mp new]
        exact running
    · intro done
      obtain ⟨publication, single, by'⟩ := settled.published done
      obtain ⟨attempt, only, id, generation⟩ := by'.attempt
      refine ⟨publication, single, by'.generation, by'.same, by'.variants, by'.variantTypes,
        attempt, ?_, id, generation⟩
      simp [List.filter_append, only, running]

/-- A manual retry keeps the rows settled. -/
theorem Settled.retry (settled : Settled deployment rows publications) {id dispatchId : String}
    (retried : Processing.retry rows id dispatchId = some after) :
    Settled deployment after publications := by
  obtain ⟨_, failed, rfl⟩ := retry_spec retried
  have before : rows.media.processingStatus ≠ .completed := by simp [failed]
  exact settled.reopen before (Media.retried_leased _) settled.distinct
    (by simp [Media.retried]) rfl (settled.unpublished before).2.2

end Settled

/-- Every attempt row was inserted by an execution under its own name. -/
def Named (deployment : Deployment) (rows : Rows) : Prop :=
  ∀ attempt ∈ rows.attempts, ∃ y, attempt.id = deployment.attemptName y

theorem Named.progress {x : ExecutionId} (named : Named deployment rows)
    (progress : Progress (deployment.attemptName x) rows after) : Named deployment after := by
  intro attempt member
  rcases progress.named attempt member with ⟨old, present, same⟩ | fresh
  · rw [← same]
    exact named old present
  · exact ⟨x, fresh⟩

/-- The rows are settled, and every execution agrees with them. -/
structure Invariant (deployment : Deployment) (s : State) : Prop where
  settled : Settled deployment s.rows s.publications
  named : Named deployment s.rows
  coherent : ∀ x, Coherent deployment s.rows x (s.executions x)

section Steps

variable {s t : State} {x : ExecutionId} {phase : Phase} {outcome : Outcome}

/-- A statement of one execution keeps the invariant when its rows make progress. -/
theorem Invariant.commit (invariant : Invariant deployment s)
    (settled : Settled deployment outcome.rows outcome.publications)
    (progress : Progress (deployment.attemptName x) s.rows outcome.rows)
    (coherent : Coherent deployment outcome.rows x outcome.phase) :
    Invariant deployment (s.commit x outcome) where
  settled := settled
  named := invariant.named.progress progress
  coherent y := by
    by_cases same : y = x
    · subst same
      simpa [State.commit] using coherent
    · simpa [State.commit, same] using (invariant.coherent y).progress progress (.inl same)

/-- A statement that writes no rows keeps the invariant. -/
theorem Invariant.goto (invariant : Invariant deployment s)
    (rows : outcome.rows = s.rows) (publications : outcome.publications = s.publications)
    (coherent : Coherent deployment s.rows x outcome.phase) :
    Invariant deployment (s.commit x outcome) := by
  refine invariant.commit ?_ ?_ ?_
  · rw [rows, publications]
    exact invariant.settled
  · rw [rows]
    exact .refl _ _
  · rw [rows]
    exact coherent

/-- An execution without a run and without a claim is coherent wherever it ends. -/
theorem coherent_threw (rows : Rows) : Coherent deployment rows x .threw :=
  coherent_ended rfl rfl rfl trivial rfl

theorem coherent_returned (rows : Rows) : Coherent deployment rows x .returned :=
  coherent_ended rfl rfl rfl trivial rfl

/-- An execution that keeps its run and has not published yet stays coherent. -/
theorem Coherent.keep {run : Run} {next : Phase} {rows : Rows}
    (coherent : Coherent deployment rows x phase) (holds : phase.run = some run)
    (kept : next.run = some run) (snapshot : next.snapshot = none) (named : next.unnamed = false)
    (published : next.published = true → phase.published = true)
    (uploading : Uploading deployment next) : Coherent deployment rows x next :=
  coherent.goto snapshot (fun _ present => holds.trans (kept.symm.trans present))
    (fun early => by simp [named] at early) uploading published

/-- The next artifact or the transaction keeps the run. -/
theorem Coherent.upload {run : Run} {rows : Rows} {upload : Upload} {count : Nat}
    (coherent : Coherent deployment rows x phase) (holds : phase.run = some run)
    (tracked : Tracked deployment run upload count 0 0) :
    Coherent deployment rows x (nextUpload run upload) := by
  have uploading := uploading_next tracked
  unfold nextUpload at uploading ⊢
  split at uploading <;> rename_i more
  · rw [if_pos more]
    exact coherent.keep holds rfl rfl rfl (fun published => by cases published) uploading
  · rw [if_neg more]
    exact coherent.keep holds rfl rfl rfl (fun published => by cases published) uploading

/-- The removal after a failed upload keeps the run. -/
theorem Coherent.abort {run : Run} {rows : Rows} (coherent : Coherent deployment rows x phase)
    (holds : phase.run = some run) (upload : Upload) (error : String) :
    Coherent deployment rows x (abortUpload run upload error) :=
  coherent.keep holds rfl rfl rfl (fun published => by cases published) trivial

/-- A statement that adds no attempt keeps its own execution coherent too. -/
theorem Coherent.unnamed_progress (coherent : Coherent deployment rows x phase)
    (progress : ∀ name, Progress name rows after) : Coherent deployment after x phase :=
  coherent.progress (progress (deployment.attemptName (x + 1))) (.inl (Nat.ne_of_lt x.lt_succ_self))

/-- A claim keeps the invariant when its execution is coherent afterwards. -/
theorem Invariant.claim (invariant : Invariant deployment s) (payload : MediaJobPayloadV1)
    (asOf : Time) {next : Phase}
    (coherent : Coherent deployment (claimRows deployment s x payload asOf) x next) :
    Invariant deployment (s.commit x (s.writing (claimRows deployment s x payload asOf) next)) := by
  apply invariant.commit
  · exact invariant.settled.claim _ _ _ x asOf
  · exact progress_claim _ s.rows _ _ _ x asOf
  · exact coherent

/-- A claimed execution reads its row next. -/
theorem coherent_reading {payload : MediaJobPayloadV1} {attemptsMade : Nat} {asOf : Time}
    (mine : Coherent deployment s.rows x (.claiming payload attemptsMade asOf)) :
    Coherent deployment (claimRows deployment s x payload asOf) x
      (.reading payload attemptsMade) := by
  have later : Coherent deployment (claimRows deployment s x payload asOf) x _ :=
    mine.unnamed_progress fun name => progress_claim name s.rows _ _ _ x asOf
  apply later.goto rfl
  · exact fun _ present => by cases present
  · exact fun _ => rfl
  · trivial
  · exact fun published => by cases published

/-- An execution starts with the row that it read back. -/
theorem coherent_starting {payload : MediaJobPayloadV1} {attemptsMade : Nat}
    (mine : Coherent deployment s.rows x (.reading payload attemptsMade)) :
    Coherent deployment s.rows x (.starting payload attemptsMade s.rows.media) where
  snapshot media present := by
    cases present
    exact .refl _
  same _ present := by cases present
  attempt _ present := by cases present
  unnamed _ := mine.unnamed rfl
  uploading := trivial
  published done := by cases done

/-- The upsert of an attempt keeps the invariant when its execution is coherent afterwards. -/
theorem Invariant.createAttempt (invariant : Invariant deployment s)
    {payload : MediaJobPayloadV1} {attemptsMade : Nat} {media : Media}
    (mine : Coherent deployment s.rows x (.starting payload attemptsMade media)) {next : Phase}
    (coherent : Coherent deployment (attemptRows deployment s x payload attemptsMade).1 x next) :
    Invariant deployment
      (s.commit x (s.writing (attemptRows deployment s x payload attemptsMade).1 next)) := by
  apply invariant.commit
  · exact invariant.settled.createAttempt (newAttempt deployment x payload attemptsMade)
      (by simp [newAttempt]) (mine.unnamed rfl)
  · exact (createAttempt_spec s.rows (newAttempt deployment x payload attemptsMade)).1
  · exact coherent

/-- An inserted attempt gives its execution a run. -/
theorem coherent_preparing {payload : MediaJobPayloadV1} {attemptsMade : Nat} {media : Media}
    (mine : Coherent deployment s.rows x (.starting payload attemptsMade media)) :
    Coherent deployment (attemptRows deployment s x payload attemptsMade).1 x
      (.preparing ⟨payload, attemptsMade, media,
        (attemptRows deployment s x payload attemptsMade).2.id⟩) := by
  obtain ⟨progress, _, _, member, generation⟩ :=
    createAttempt_spec s.rows (newAttempt deployment x payload attemptsMade)
  refine coherent_run rfl rfl rfl ((mine.snapshot media rfl).trans progress.same) ?_ trivial ?_
  · exact ⟨_, member, rfl, generation⟩
  · exact fun published => by cases published

/-- The transaction of `publish` keeps the invariant when its execution is coherent with a
completed media. -/
theorem Invariant.publish (invariant : Invariant deployment s) {run : Run} {upload : Upload}
    {variants : List MediaVariant} {next : Phase}
    (mine : Coherent deployment s.rows x (.committing run upload))
    (matched : s.rows.media.guarded run.payload.generation x = true)
    (built : variantRows deployment run upload.files upload.artifacts upload.finals = some variants)
    (coherent : ∀ after : Rows, after.media.processingStatus = .completed →
      Coherent deployment after x (.committing run upload) →
      Coherent deployment after x next) :
    Invariant deployment (s.commit x
      ⟨run.rows (.publish run.attemptId variants upload.metadata) s x, s.objects,
        s.publications ++ [⟨x, run, upload⟩], next⟩) := by
  obtain ⟨done, count, tracked⟩ := mine.uploading
  have settled := invariant.settled.publish matched (mine.same run rfl) (mine.attempt run rfl)
    (tracked.finished done) tracked.variantTypes built s.now
  have progress (name : String) := progress_run name
    (.publish run.attemptId variants upload.metadata) invariant.settled.leased
    run.payload.generation x s.now
  apply invariant.commit settled (progress _)
  apply coherent
  · exact settled.completed_of_published (by simp)
  · exact mine.unnamed_progress progress

/-- The media is completed when an execution comes to the second `complete`, which finds no
lease. -/
theorem Invariant.completing_rows (invariant : Invariant deployment s) {run : Run}
    (started : s.executions x = .completing run) (operation : Operation) :
    run.rows operation s x = s.rows := by
  have done := (invariant.coherent x).published (by rw [started]; rfl)
  have lost := unguarded_of_completed invariant.settled.leased done x
  rw [Run.rows, operation.run_of_lost lost]

/-- Every statement of an execution keeps the invariant. -/
theorem invariant_act (invariant : Invariant deployment s) {action : Action}
    (taken : act deployment s x action (s.executions x) = some outcome) :
    Invariant deployment (s.commit x outcome) := by
  obtain ⟨phase, started⟩ : ∃ phase, s.executions x = phase := ⟨_, rfl⟩
  have mine := invariant.coherent x
  rw [started] at mine taken
  cases statement_of_act taken with
  | claimRefused | readLost | attemptRefused | workspaceLost | failRefused =>
      exact invariant.goto rfl rfl (coherent_threw _)
  | leave => exact invariant.goto rfl rfl (coherent_returned _)
  | claimUnacknowledged payload => exact invariant.claim payload _ (coherent_threw _)
  | claim payload => exact invariant.claim payload _ (coherent_reading mine)
  | read => exact invariant.goto rfl rfl (coherent_starting mine)
  | attempt => exact invariant.createAttempt mine (coherent_preparing mine)
  | attemptUnacknowledged => exact invariant.createAttempt mine (coherent_threw _)
  | workspace | download | downloadLost | handleLost | removedLost | completeRefused =>
      exact invariant.goto rfl rfl (mine.keep rfl rfl rfl rfl nofun trivial)
  | handle run result files =>
      exact invariant.goto rfl rfl (mine.upload rfl (tracked_start result files))
  | put run upload artifact rest content error current =>
      obtain ⟨open', count, tracked⟩ := mine.uploading
      apply invariant.goto rfl rfl
      exact mine.keep rfl rfl rfl rfl nofun ⟨open', count, tracked.put current⟩
  | check run upload artifact rest current =>
      obtain ⟨open', count, tracked⟩ := mine.uploading
      apply invariant.goto rfl rfl
      exact mine.keep rfl rfl rfl rfl nofun ⟨open', count, tracked.check current⟩
  | copy => exact invariant.goto rfl rfl (mine.keep rfl rfl rfl rfl nofun mine.uploading)
  | verify run upload artifact rest current =>
      obtain ⟨_, count, tracked⟩ := mine.uploading
      exact invariant.goto rfl rfl (mine.upload rfl (tracked.verify current))
  | putUnacknowledged run upload | copyUnacknowledged run upload | abort run upload
  | publishLost run upload =>
      exact invariant.goto rfl rfl (mine.abort rfl upload _)
  | publish run upload variants error matched built =>
      apply invariant.publish mine matched built
      intro after done later
      exact coherent_run rfl rfl rfl (later.same run rfl) (later.attempt run rfl) trivial
        fun _ => done
  | publishUnacknowledged run upload variants error matched built =>
      exact invariant.publish mine matched built fun _ _ later => later.abort rfl upload error
  | skip run ref rest failure | remove run ref rest failure =>
      refine invariant.goto rfl rfl (mine.keep rfl rfl rfl rfl ?_ trivial)
      cases failure <;> exact id
  | removed => exact invariant.goto rfl rfl (mine.keep rfl rfl rfl rfl (fun _ => rfl) trivial)
  | complete => exact invariant.goto (invariant.completing_rows started _) rfl (coherent_returned _)
  | completeUnacknowledged =>
      apply invariant.goto (invariant.completing_rows started _) rfl
      exact mine.keep rfl rfl rfl rfl nofun trivial
  | fail run message =>
      apply invariant.commit
      · exact invariant.settled.fail _ _ _ _ _ x s.now
      · exact progress_run _ _ invariant.settled.leased _ x s.now
      · exact coherent_threw _

/-- A write to the rows outside the executions keeps the invariant. -/
theorem Invariant.write (invariant : Invariant deployment s)
    (settled : Settled deployment after s.publications)
    (progress : ∀ name, Progress name s.rows after) :
    Invariant deployment { s with rows := after } where
  settled := settled
  named := invariant.named.progress (progress (deployment.attemptName 0))
  coherent x := (invariant.coherent x).unnamed_progress progress

/-- A write of the outbox keeps everything about the executions. -/
theorem Invariant.storing (invariant : Invariant deployment s)
    (dispatches : List ProcessingDispatch) :
    Invariant deployment { s with rows := { s.rows with dispatches := dispatches } } := by
  refine invariant.write ⟨invariant.settled.leased, invariant.settled.distinct,
    invariant.settled.unpublished, fun done => ?_⟩ fun name => ?_
  · obtain ⟨publication, only, by'⟩ := invariant.settled.published done
    exact ⟨publication, only, by'.generation, by'.same, by'.variants, by'.variantTypes, by'.attempt⟩
  · exact ⟨.refl _, (Progress.refl name s.rows).kept, (Progress.refl name s.rows).named, id⟩

/-- Every event keeps the invariant. -/
theorem invariant_step {event : Event} (invariant : Invariant deployment s)
    (taken : step deployment s event = some t) : Invariant deployment t := by
  cases event with
  | tick duration =>
      cases taken
      exact ⟨invariant.settled, invariant.named, invariant.coherent⟩
  | deliver x payload attemptsMade =>
      simp only [step] at taken
      split at taken
      · rename_i idle
        split at taken <;> cases taken
        refine invariant.goto rfl rfl ((invariant.coherent x).goto rfl ?_ ?_ trivial ?_)
        · exact fun _ present => by cases present
        · exact fun _ => by rw [idle]; rfl
        · exact fun published => by cases published
      · cases taken
  | run x action =>
      obtain ⟨outcome, acted, rfl⟩ := Option.map_eq_some_iff.mp taken
      exact invariant_act invariant acted
  | renew x generation asOf =>
      simp only [step] at taken
      split at taken <;> cases taken
      exact invariant.write (invariant.settled.renew ..)
        fun name => progress_run name _ invariant.settled.leased ..
  | crash x =>
      simp only [step] at taken
      split at taken <;> cases taken
      exact invariant.goto rfl rfl (coherent_ended rfl rfl rfl trivial rfl)
  | retry id dispatchId =>
      obtain ⟨rows, retried, rfl⟩ := Option.map_eq_some_iff.mp taken
      exact invariant.write (invariant.settled.retry retried) fun name =>
        progress_retry name retried
  | outbox dispatches =>
      cases taken
      exact invariant.storing dispatches

end Steps

/-- A new upload satisfies the invariant. -/
theorem invariant_initial {s : State} (initial : (machine deployment).initial s) :
    Invariant deployment s := by
  obtain ⟨fresh, variants, attempts, idle, publications⟩ := initial
  refine ⟨⟨fresh.leased, by simp [attempts], fun _ => ⟨variants, publications, ?_⟩, ?_⟩, ?_, ?_⟩
  · simp [attempts]
  · intro done
    simp [fresh.status] at done
  · simp [Named, attempts]
  · intro x
    rw [idle x]
    refine ⟨?_, ?_, ?_, by simp [attempts], trivial, ?_⟩
    · exact fun _ present => by cases present
    · exact fun _ present => by cases present
    · exact fun _ present => by cases present
    · exact fun published => by cases published

/-- Every reachable state satisfies the invariant. -/
theorem invariant_of_reachable {guard : State → Event → Prop} {s : State}
    (reached : (machine deployment).Reachable guard s) : Invariant deployment s :=
  reached.invariant (fun _ => invariant_initial) fun _ _ _ _ taken invariant =>
    invariant_step invariant taken

/-- A publication that took effect is never forgotten. -/
theorem publications_step {s t : State} {event : Event} (taken : step deployment s event = some t)
    (published : s.publications ≠ []) : t.publications ≠ [] := by
  cases event with
  | tick | outbox => cases taken; exact published
  | deliver | renew | crash =>
      simp only [step] at taken
      repeat' split at taken
      all_goals cases taken
      all_goals exact published
  | retry id dispatchId =>
      obtain ⟨rows, _, rfl⟩ := Option.map_eq_some_iff.mp taken
      exact published
  | run x action =>
      obtain ⟨outcome, acted, rfl⟩ := Option.map_eq_some_iff.mp taken
      have grows : ∃ more, outcome.publications = s.publications ++ more := by
        generalize s.executions x = phase at acted
        cases statement_of_act acted with
        | publish | publishUnacknowledged => exact ⟨_, rfl⟩
        | _ => exact ⟨[], (List.append_nil _).symm⟩
      obtain ⟨more, same⟩ := grows
      simp [State.commit, same, published]

/-- The keys of one attempt share this prefix. -/
def attemptPrefix (run : Run) : String :=
  "posts/" ++ run.media.postId ++ "/" ++ run.media.id ++ "/" ++ run.media.processingProfile ++
    "/generations/" ++ toString run.payload.generation ++ "/attempts/" ++ run.attemptId ++ "/"

/-- A variant row stands for one artifact of a publication. -/
structure VariantOf (deployment : Deployment) (run : Run) (variant : MediaVariant)
    (artifact : ProcessedArtifact) : Prop where
  mediaId : variant.mediaId = run.media.id
  variantType : variant.variantType = artifact.variantType
  bucket : variant.bucket = deployment.buckets.processed
  objectKey : variant.objectKey = attemptPrefix run ++ artifact.filename

/-- The rows of a publication stand for its artifacts, one each. -/
theorem variantRows_forall₂ {run : Run} {files : String → Option Bytes}
    {artifacts : List ProcessedArtifact} {variants : List MediaVariant}
    (built : variantRows deployment run files artifacts
      (artifacts.map (finalRef deployment run)) = some variants) :
    List.Forall₂ (VariantOf deployment run) variants artifacts := by
  induction artifacts generalizing variants with
  | nil =>
      cases built
      exact .nil
  | cons artifact artifacts ih =>
      simp only [List.map_cons, variantRows, Option.bind_eq_some_iff,
        Option.map_eq_some_iff] at built
      obtain ⟨content, _, rest, others, rfl⟩ := built
      exact .cons ⟨rfl, rfl, rfl, rfl⟩ (ih others)

/-- What the rows of a media say about its processing. -/
structure CompletionLaw (deployment : Deployment) (s : State) : Prop where
  leased : s.rows.media.Leased
  unpublished : s.rows.media.processingStatus ≠ .completed → s.rows.variants = []
  published : s.rows.media.processingStatus = .completed →
    ∃ publication, s.publications = [publication] ∧
      publication.run.payload.generation = s.rows.media.processingGeneration ∧
      publication.run.media.id = s.rows.media.id ∧
      List.Forall₂ (VariantOf deployment publication.run) s.rows.variants
        publication.upload.artifacts ∧
      (s.rows.variants.map (·.variantType)).Nodup ∧
      (s.rows.attempts.filter fun attempt =>
        attempt.generation = s.rows.media.processingGeneration ∧
          attempt.status = .completed).length = 1

/-- The invariant implies the law. -/
theorem Invariant.completionLaw {s : State} (invariant : Invariant deployment s) :
    CompletionLaw deployment s where
  leased := invariant.settled.leased
  unpublished open' := (invariant.settled.unpublished open').1
  published done := by
    obtain ⟨publication, single, by'⟩ := invariant.settled.published done
    obtain ⟨attempt, only, _, generation⟩ := by'.attempt
    refine ⟨publication, single, by'.generation, by'.same.id, variantRows_forall₂ by'.variants,
      ?_, ?_⟩
    · have keys := congrArg (List.map fun key => key.2.2) (variantRows_keys by'.variants)
      simp only [List.map_map, Function.comp_def, MediaVariant.key] at keys
      rw [keys]
      exact by'.variantTypes
    · have both : (s.rows.attempts.filter fun attempt =>
          attempt.generation = s.rows.media.processingGeneration ∧ attempt.status = .completed) =
          (s.rows.attempts.filter (·.status = .completed)).filter
            (·.generation = s.rows.media.processingGeneration) := by
        simp [List.filter_filter, Bool.decide_and]
      rw [both, only]
      simp [generation, by'.generation]

/-- A completed media is published exactly once, and it stays completed. -/
theorem machine_completionLaw (deployment : Deployment) (s : State)
    (reached : (machine deployment).Reachable Machine.anything s) :
    CompletionLaw deployment s ∧
      ∀ t, (machine deployment).Path Machine.anything s t →
        s.rows.media.processingStatus = .completed →
        t.rows.media.processingStatus = .completed := by
  have invariant := invariant_of_reachable reached
  refine ⟨invariant.completionLaw, fun t path done => ?_⟩
  obtain ⟨publication, single, _⟩ := invariant.settled.published done
  have keeps : ∀ s event t, Machine.anything s event → (machine deployment).step s event = some t →
      s.publications ≠ [] → t.publications ≠ [] := fun _ _ _ _ taken => publications_step taken
  have published := path.invariant keeps (by simp [single])
  exact (invariant_of_reachable (reached.extend path)).settled.completed_of_published published

/-- One worker host with short attempt names. -/
def sampleDeployment : Deployment where
  buckets := ⟨"originals", "processed", "temporary"⟩
  sha256 content := toString content.length
  processingLeaseSeconds := 60
  mediaJobAttempts := 3
  temporaryRoot := "/tmp"
  attemptName x := String.ofList (List.replicate (x + 1) 'a')
  attemptName_injective x y same := by
    have lengths := congrArg String.length same
    simpa using lengths
  attemptName_plain x := by simp

/-- One uploaded recording before any worker saw it. -/
def recording : Rows where
  media := (createWithDispatch { sampleInput with mediaType := .audio }).1
  variants := []
  attempts := []
  dispatches := [(createWithDispatch { sampleInput with mediaType := .audio }).2]

def recordingStart : State := ⟨0, recording, fun _ => none, fun _ => .idle, []⟩

theorem recordingStart_initial : (machine sampleDeployment).initial recordingStart :=
  ⟨createWithDispatch_fresh _, rfl, rfl, fun _ => rfl, rfl⟩

def recordingPayload : MediaJobPayloadV1 where
  dispatchId := "dispatch-0"
  mediaId := "media-0"
  postId := "post-0"
  mediaType := .audio
  generation := 1
  processingProfile := "balanced-v1"
  reason := .initialUpload

/-- One execution claims the recording and comes to its handler. -/
def toHandler (x : ExecutionId) : List Event :=
  .deliver x recordingPayload 0 ::
    [.claim .ok, .read true, .createAttempt .ok, .createWorkspace true, .downloadAndVerify none].map
      (Event.run x)

/-- Its handler produces one file and uploads it. -/
def toPublication (x : ExecutionId) (content : Bytes) : List Event :=
  [.handle (.ok (.audio .null, fun _ => some content)), .put .ok "", .check none, .copy .ok "",
    .verify none].map (Event.run x)

/-- The publication and the second `complete` end the execution. -/
def toEnd (x : ExecutionId) : List Event :=
  [.publish .ok "", .remove true, .remove true, .complete .ok ""].map (Event.run x)

/-- A worker completes the recording with one variant. -/
theorem recording_completed : ∃ s, (machine sampleDeployment).Reachable Machine.anything s ∧
    s.rows.media.processingStatus = .completed ∧ s.rows.variants.length = 1 ∧
      CompletionLaw sampleDeployment s := by
  obtain ⟨s, reached, observed⟩ := (machine sampleDeployment).reachable_of_observed
    Machine.anything (fun s => (s.rows.media.processingStatus, s.rows.variants.length))
    (.completed, 1) (toHandler 0 ++ toPublication 0 [1] ++ toEnd 0) recordingStart_initial
    (by decide)
  simp only [Prod.mk.injEq] at observed
  exact ⟨s, reached, observed.1, observed.2, (machine_completionLaw sampleDeployment s reached).1⟩

end PostsMedia.Processing
