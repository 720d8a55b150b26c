import PostsMedia.Processing.Orchestrator

namespace PostsMedia.Processing

/-- The rows after the statement of `claim` of one delivery. -/
def claimRows (deployment : Deployment) (s : State) (x : ExecutionId)
    (payload : MediaJobPayloadV1) (asOf : Time) : Rows :=
  (claim s.rows payload.generation (mediaJobId payload.mediaId payload.generation)
    deployment.processingLeaseSeconds x asOf).1

/-- The rows and the attempt after the upsert of one delivery. -/
def attemptRows (deployment : Deployment) (s : State) (x : ExecutionId)
    (payload : MediaJobPayloadV1) (attemptsMade : Nat) : Rows × ProcessingAttempt :=
  createAttempt s.rows (newAttempt deployment x payload attemptsMade)

/-- The rows after an operation of an execution under its own lease token. -/
def Run.rows (run : Run) (operation : Operation) (s : State) (x : ExecutionId) : Rows :=
  (operation.run s.rows run.payload.generation x s.now).1

/-- The operation of the `catch` block. -/
def Run.failure (deployment : Deployment) (run : Run) (message : String) : Operation :=
  .fail run.attemptId (decide (deployment.mediaJobAttempts ≤ run.attemptsMade + 1))
    "PROCESSING_FAILED" message

/-- Everything that one statement of an execution can do. -/
inductive Statement (deployment : Deployment) (s : State) (x : ExecutionId) :
    Phase → Action → Outcome → Prop
  | claimRefused (payload : MediaJobPayloadV1) (attemptsMade : Nat) (asOf : Time) :
      Statement deployment s x (.claiming payload attemptsMade asOf) (.claim .refused)
        (s.goto .threw)
  | claimUnacknowledged (payload : MediaJobPayloadV1) (attemptsMade : Nat) (asOf : Time) :
      Statement deployment s x (.claiming payload attemptsMade asOf) (.claim .unacknowledged)
        (s.writing (claimRows deployment s x payload asOf) .threw)
  | claim (payload : MediaJobPayloadV1) (attemptsMade : Nat) (asOf : Time)
      (matched : s.rows.media.claimable payload.generation asOf = true) :
      Statement deployment s x (.claiming payload attemptsMade asOf) (.claim .ok)
        (s.writing (claimRows deployment s x payload asOf) (.reading payload attemptsMade))
  | leave (payload : MediaJobPayloadV1) (attemptsMade : Nat) (asOf : Time)
      (taken : s.rows.media.claimable payload.generation asOf = false) :
      Statement deployment s x (.claiming payload attemptsMade asOf) (.claim .ok)
        (s.goto .returned)
  | read (payload : MediaJobPayloadV1) (attemptsMade : Nat) :
      Statement deployment s x (.reading payload attemptsMade) (.read true)
        (s.goto (.starting payload attemptsMade s.rows.media))
  | readLost (payload : MediaJobPayloadV1) (attemptsMade : Nat) :
      Statement deployment s x (.reading payload attemptsMade) (.read false) (s.goto .threw)
  | attempt (payload : MediaJobPayloadV1) (attemptsMade : Nat) (media : Media) :
      Statement deployment s x (.starting payload attemptsMade media) (.createAttempt .ok)
        (s.writing (attemptRows deployment s x payload attemptsMade).1
          (.preparing ⟨payload, attemptsMade, media,
            (attemptRows deployment s x payload attemptsMade).2.id⟩))
  | attemptUnacknowledged (payload : MediaJobPayloadV1) (attemptsMade : Nat) (media : Media) :
      Statement deployment s x (.starting payload attemptsMade media)
        (.createAttempt .unacknowledged)
        (s.writing (attemptRows deployment s x payload attemptsMade).1 .threw)
  | attemptRefused (payload : MediaJobPayloadV1) (attemptsMade : Nat) (media : Media) :
      Statement deployment s x (.starting payload attemptsMade media) (.createAttempt .refused)
        (s.goto .threw)
  | workspace (run : Run) :
      Statement deployment s x (.preparing run) (.createWorkspace true)
        (s.goto (.downloading run))
  | workspaceLost (run : Run) :
      Statement deployment s x (.preparing run) (.createWorkspace false) (s.goto .threw)
  | download (run : Run) :
      Statement deployment s x (.downloading run) (.downloadAndVerify none)
        (s.goto (.handling run))
  | downloadLost (run : Run) (error : String) :
      Statement deployment s x (.downloading run) (.downloadAndVerify (some error))
        (s.goto (.failing run error))
  | handle (run : Run) (result : HandlerResult) (files : String → Option Bytes) :
      Statement deployment s x (.handling run) (.handle (.ok (result, files)))
        (s.goto (nextUpload run (startUpload deployment run result files)))
  | handleLost (run : Run) (error : String) :
      Statement deployment s x (.handling run) (.handle (.error error))
        (s.goto (.failing run error))
  | put (run : Run) (upload : Upload) (artifact : ProcessedArtifact)
      (rest : List ProcessedArtifact) (content : Bytes) (error : String)
      (current : upload.pending = artifact :: rest)
      (file : upload.files artifact.path = some content) :
      Statement deployment s x (.uploading run upload .put) (.put .ok error)
        (s.storing (tempRef deployment run artifact) (some content) (.uploading run
          { upload with temporary := upload.temporary ++ [tempRef deployment run artifact] }
          .check))
  | putUnacknowledged (run : Run) (upload : Upload) (artifact : ProcessedArtifact)
      (content : Bytes) (error : String) :
      Statement deployment s x (.uploading run upload .put) (.put .unacknowledged error)
        (s.storing (tempRef deployment run artifact) (some content)
          (abortUpload run upload error))
  | check (run : Run) (upload : Upload) (artifact : ProcessedArtifact)
      (rest : List ProcessedArtifact) (current : upload.pending = artifact :: rest) :
      Statement deployment s x (.uploading run upload .check) (.check none)
        (s.goto (.uploading run
          { upload with finals := upload.finals ++ [finalRef deployment run artifact] } .copy))
  | copy (run : Run) (upload : Upload) (artifact : ProcessedArtifact)
      (rest : List ProcessedArtifact) (content : Bytes) (error : String)
      (current : upload.pending = artifact :: rest)
      (source : s.objects (tempRef deployment run artifact) = some content) :
      Statement deployment s x (.uploading run upload .copy) (.copy .ok error)
        (s.storing (finalRef deployment run artifact) (some content)
          (.uploading run upload .verify))
  | copyUnacknowledged (run : Run) (upload : Upload) (artifact : ProcessedArtifact)
      (content : Bytes) (error : String) :
      Statement deployment s x (.uploading run upload .copy) (.copy .unacknowledged error)
        (s.storing (finalRef deployment run artifact) (some content)
          (abortUpload run upload error))
  | verify (run : Run) (upload : Upload) (artifact : ProcessedArtifact)
      (rest : List ProcessedArtifact) (current : upload.pending = artifact :: rest) :
      Statement deployment s x (.uploading run upload .verify) (.verify none)
        (s.goto (nextUpload run { upload with pending := rest }))
  | abort (run : Run) (upload : Upload) (stage : UploadStage) (action : Action)
      (error : String) :
      Statement deployment s x (.uploading run upload stage) action
        (s.goto (abortUpload run upload error))
  | publish (run : Run) (upload : Upload) (variants : List MediaVariant) (error : String)
      (matched : s.rows.media.guarded run.payload.generation x = true)
      (built : variantRows deployment run upload.files upload.artifacts upload.finals =
        some variants) :
      Statement deployment s x (.committing run upload) (.publish .ok error)
        ⟨run.rows (.publish run.attemptId variants upload.metadata) s x, s.objects,
          s.publications ++ [⟨x, run, upload⟩], .removing run upload.temporary none⟩
  | publishUnacknowledged (run : Run) (upload : Upload) (variants : List MediaVariant)
      (error : String) (matched : s.rows.media.guarded run.payload.generation x = true)
      (built : variantRows deployment run upload.files upload.artifacts upload.finals =
        some variants) :
      Statement deployment s x (.committing run upload) (.publish .unacknowledged error)
        ⟨run.rows (.publish run.attemptId variants upload.metadata) s x, s.objects,
          s.publications ++ [⟨x, run, upload⟩], abortUpload run upload error⟩
  | publishLost (run : Run) (upload : Upload) (action : Action) (error : String) :
      Statement deployment s x (.committing run upload) action
        (s.goto (abortUpload run upload error))
  | skip (run : Run) (ref : ObjectRef) (rest : List ObjectRef) (failure : Option String) :
      Statement deployment s x (.removing run (ref :: rest) failure) (.remove false)
        (s.goto (.removing run rest failure))
  | remove (run : Run) (ref : ObjectRef) (rest : List ObjectRef) (failure : Option String) :
      Statement deployment s x (.removing run (ref :: rest) failure) (.remove true)
        (s.storing ref none (.removing run rest failure))
  | removed (run : Run) (removed : Bool) :
      Statement deployment s x (.removing run [] none) (.remove removed)
        (s.goto (.completing run))
  | removedLost (run : Run) (error : String) (removed : Bool) :
      Statement deployment s x (.removing run [] (some error)) (.remove removed)
        (s.goto (.failing run error))
  | complete (run : Run) (error : String) :
      Statement deployment s x (.completing run) (.complete .ok error)
        (s.writing (run.rows (.complete run.attemptId) s x) .returned)
  | completeUnacknowledged (run : Run) (error : String) :
      Statement deployment s x (.completing run) (.complete .unacknowledged error)
        (s.writing (run.rows (.complete run.attemptId) s x) (.failing run error))
  | completeRefused (run : Run) (error : String) :
      Statement deployment s x (.completing run) (.complete .refused error)
        (s.goto (.failing run error))
  | fail (run : Run) (message : String) (fate : Fate) (effect : fate.tookEffect = true) :
      Statement deployment s x (.failing run message) (.fail fate)
        (s.writing (run.rows (run.failure deployment message) s x) .threw)
  | failRefused (run : Run) (message : String) :
      Statement deployment s x (.failing run message) (.fail .refused) (s.goto .threw)

section Inversion

variable {deployment : Deployment} {s : State} {x : ExecutionId} {phase : Phase}
variable {outcome : Outcome}

/-- The fate of a claim and its `where` clause decide what it does. -/
theorem statement_claim {fate : Fate} (taken : actClaim deployment s x fate phase = some outcome) :
    Statement deployment s x phase (.claim fate) outcome := by
  unfold actClaim at taken
  split at taken
  · rename_i payload attemptsMade asOf
    cases fate with
    | refused =>
        cases taken
        exact .claimRefused ..
    | ok =>
        by_cases matched : s.rows.media.claimable payload.generation asOf = true
        · simp only [claim, matched, if_true] at taken
          cases taken
          have claimed : Statement deployment s x (.claiming payload attemptsMade asOf) (.claim .ok)
              (s.writing (claimRows deployment s x payload asOf) (.reading payload attemptsMade)) :=
            .claim payload attemptsMade asOf matched
          simpa only [claimRows, claim, matched, if_true] using claimed
        · simp only [claim, matched] at taken
          cases taken
          exact .leave payload attemptsMade asOf (Bool.eq_false_iff.mpr matched)
    | unacknowledged =>
        have answered : Statement deployment s x (.claiming payload attemptsMade asOf)
            (.claim .unacknowledged) (s.writing (claimRows deployment s x payload asOf) .threw) :=
          .claimUnacknowledged payload attemptsMade asOf
        by_cases matched : s.rows.media.claimable payload.generation asOf = true
        · simp only [claim, matched, if_true] at taken
          cases taken
          simpa only [claimRows, claim, matched, if_true] using answered
        · simp only [claim, matched] at taken
          cases taken
          simpa only [claimRows, claim, matched] using answered
  · cases taken

theorem statement_put {fate : Fate} {error : String}
    (taken : actPut deployment s fate error phase = some outcome) :
    Statement deployment s x phase (.put fate error) outcome := by
  unfold actPut at taken
  split at taken
  · split at taken
    · cases taken
    · rename_i artifact rest current
      split at taken
      · cases taken
        exact .abort ..
      · cases taken
        exact .abort ..
      · rename_i content _ file
        cases fate <;> cases taken
        · exact .put _ _ artifact rest content error current file
        · exact .abort ..
        · exact .putUnacknowledged ..
  · cases taken

theorem statement_check {failure : Option String}
    (taken : actCheck deployment s failure phase = some outcome) :
    Statement deployment s x phase (.check failure) outcome := by
  unfold actCheck at taken
  split at taken
  · split at taken
    · cases taken
    · rename_i artifact rest current
      split at taken <;> cases taken
      · rename_i present
        rw [present.2]
        exact .check _ _ artifact rest current
      · exact .abort ..
  · cases taken

theorem statement_copy {fate : Fate} {error : String}
    (taken : actCopy deployment s fate error phase = some outcome) :
    Statement deployment s x phase (.copy fate error) outcome := by
  unfold actCopy at taken
  split at taken
  · split at taken
    · cases taken
    · rename_i artifact rest current
      split at taken <;> cases taken
      · rename_i content source
        exact .copy _ _ artifact rest content error current source
      · exact .copyUnacknowledged ..
      · exact .abort ..
  · cases taken

theorem statement_verify {failure : Option String}
    (taken : actVerify deployment s failure phase = some outcome) :
    Statement deployment s x phase (.verify failure) outcome := by
  unfold actVerify at taken
  split at taken
  · split at taken
    · cases taken
    · rename_i artifact rest current
      split at taken <;> cases taken
      · rename_i present
        rw [present.2]
        exact .verify _ _ artifact rest current
      · exact .abort ..
  · cases taken

theorem statement_publish {fate : Fate} {error : String}
    (taken : actPublish deployment s x fate error phase = some outcome) :
    Statement deployment s x phase (.publish fate error) outcome := by
  unfold actPublish at taken
  split at taken
  · split at taken
    · cases taken
      exact .publishLost ..
    · split at taken
      · cases taken
        exact .publishLost ..
      · rename_i matched
        rw [Bool.not_eq_false] at matched
        split at taken
        · cases taken
          exact .publishLost ..
        · rename_i variants built
          cases fate <;> cases taken
          · exact .publish _ _ variants error matched built
          · contradiction
          · exact .publishUnacknowledged _ _ variants error matched built
  · cases taken

/-- Every statement is one of these. -/
theorem statement_of_act {action : Action}
    (taken : act deployment s x action phase = some outcome) :
    Statement deployment s x phase action outcome := by
  cases action with
  | claim fate => exact statement_claim taken
  | put fate error => exact statement_put taken
  | check failure => exact statement_check taken
  | copy fate error => exact statement_copy taken
  | verify failure => exact statement_verify taken
  | publish fate error => exact statement_publish taken
  | read found =>
      simp only [act, actRead] at taken
      split at taken <;> cases taken
      cases found
      · exact .readLost ..
      · exact .read ..
  | createAttempt fate =>
      simp only [act, actCreateAttempt] at taken
      split at taken
      · cases fate <;> cases taken
        · exact .attempt ..
        · exact .attemptRefused ..
        · exact .attemptUnacknowledged ..
      · cases taken
  | createWorkspace created =>
      simp only [act, actCreateWorkspace] at taken
      split at taken <;> cases taken
      cases created
      · exact .workspaceLost ..
      · exact .workspace ..
  | downloadAndVerify failure =>
      simp only [act, actDownloadAndVerify] at taken
      split at taken <;> cases taken
      cases failure
      · exact .download ..
      · exact .downloadLost ..
  | handle result =>
      simp only [act, actHandle] at taken
      split at taken
      · split at taken <;> cases taken
        · exact .handleLost ..
        · exact .handle ..
      · cases taken
  | remove removed =>
      simp only [act, actRemove] at taken
      split at taken
      · cases removed <;> cases taken
        · exact .skip ..
        · exact .remove ..
      · cases taken
        exact .removed ..
      · cases taken
        exact .removedLost ..
      · cases taken
  | complete fate error =>
      simp only [act, actComplete] at taken
      split at taken
      · cases fate <;> cases taken
        · exact .complete ..
        · exact .completeRefused ..
        · exact .completeUnacknowledged ..
      · cases taken
  | fail fate =>
      simp only [act, actFail] at taken
      split at taken
      · cases fate <;> cases taken
        · exact .fail _ _ _ rfl
        · exact .failRefused ..
        · exact .fail _ _ _ rfl
      · cases taken

end Inversion

end PostsMedia.Processing
