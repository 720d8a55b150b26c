import Mathlib.Logic.Function.Basic
import PostsMedia.Library.Machine
import PostsMedia.Processing.Artifacts
import PostsMedia.Processing.Claims

namespace PostsMedia.Processing

/-- Each execution draws its own lease token, so the token names the execution. -/
abbrev ExecutionId := LeaseToken

/-- What the workers share. The database names each attempt row by a fresh UUID. -/
structure Deployment where
  buckets : StorageBuckets
  sha256 : Bytes → String
  processingLeaseSeconds : Nat
  mediaJobAttempts : Nat
  temporaryRoot : String
  attemptName : ExecutionId → String
  attemptName_injective : ∀ x y, attemptName x = attemptName y → x = y
  attemptName_plain : ∀ x, '/' ∉ (attemptName x).toList

/-- What an execution holds after `createAttempt`. -/
structure Run where
  payload : MediaJobPayloadV1
  attemptsMade : Nat
  media : Media
  attemptId : String

/-- The local variables of `publish`. The first pending artifact is the current one. -/
structure Upload where
  files : String → Option Bytes
  artifacts : List ProcessedArtifact
  metadata : Option Json
  pending : List ProcessedArtifact
  temporary : List ObjectRef
  finals : List ObjectRef

/-- The next storage call of `publish` for the current artifact. -/
inductive UploadStage
  | put
  | check
  | copy
  | verify
  deriving DecidableEq, Repr

/-- The program point of one execution. -/
inductive Phase
  | idle
  | claiming (payload : MediaJobPayloadV1) (attemptsMade : Nat) (asOf : Time)
  | reading (payload : MediaJobPayloadV1) (attemptsMade : Nat)
  | starting (payload : MediaJobPayloadV1) (attemptsMade : Nat) (media : Media)
  | preparing (run : Run)
  | downloading (run : Run)
  | handling (run : Run)
  | uploading (run : Run) (upload : Upload) (stage : UploadStage)
  | committing (run : Run) (upload : Upload)
  | removing (run : Run) (refs : List ObjectRef) (failure : Option String)
  | completing (run : Run)
  | failing (run : Run) (message : String)
  | returned
  | threw
  | crashed

/-- A publication that took effect, recorded for the proofs. -/
structure Publication where
  execution : ExecutionId
  run : Run
  upload : Upload

/-- The shared state of one media: its rows, the object storage and all executions. -/
structure State where
  now : Time
  rows : Rows
  objects : ObjectRef → Option Bytes
  executions : ExecutionId → Phase
  publications : List Publication

/-- One statement of an execution with what happens to it. -/
inductive Action
  | claim (fate : Fate)
  | read (found : Bool)
  | createAttempt (fate : Fate)
  | createWorkspace (created : Bool)
  | downloadAndVerify (failure : Option String)
  | handle (result : Except String (HandlerResult × (String → Option Bytes)))
  | put (fate : Fate) (error : String)
  | check (failure : Option String)
  | copy (fate : Fate) (error : String)
  | verify (failure : Option String)
  | publish (fate : Fate) (error : String)
  | remove (removed : Bool)
  | complete (fate : Fate) (error : String)
  | fail (fate : Fate)

/-- The rows, objects, publications and program point after a statement. -/
structure Outcome where
  rows : Rows
  objects : ObjectRef → Option Bytes
  publications : List Publication
  phase : Phase

namespace State

/-- Nothing changes but the program point. -/
def goto (s : State) (phase : Phase) : Outcome := ⟨s.rows, s.objects, s.publications, phase⟩

/-- The statement wrote rows. -/
def writing (s : State) (rows : Rows) (phase : Phase) : Outcome :=
  ⟨rows, s.objects, s.publications, phase⟩

/-- The statement stored or removed an object. -/
def storing (s : State) (ref : ObjectRef) (content : Option Bytes) (phase : Phase) : Outcome :=
  ⟨s.rows, Function.update s.objects ref content, s.publications, phase⟩

/-- The state after a statement of one execution. -/
def commit (s : State) (x : ExecutionId) (outcome : Outcome) : State where
  now := s.now
  rows := outcome.rows
  objects := outcome.objects
  executions := Function.update s.executions x outcome.phase
  publications := outcome.publications

end State

section Keys

variable (deployment : Deployment) (run : Run)

def tempRef (artifact : ProcessedArtifact) : ObjectRef :=
  deployment.buckets.processingTempKey run.media.id run.payload.generation run.attemptId
    artifact.filename

def finalRef (artifact : ProcessedArtifact) : ObjectRef :=
  deployment.buckets.processedAttemptKey run.media.postId run.media.id run.media.processingProfile
    run.payload.generation run.attemptId artifact.filename

/-- The directory that `createWorkspace` makes. -/
def workspace : String :=
  deployment.temporaryRoot ++ "/" ++ run.payload.mediaId ++ "/" ++
    toString run.payload.generation ++ "/" ++ run.attemptId

/-- The row that the publication stores for one artifact. -/
def variantRow (artifact : ProcessedArtifact) (final : ObjectRef) (content : Bytes) :
    MediaVariant where
  mediaId := run.media.id
  processingProfile := run.media.processingProfile
  variantType := artifact.variantType
  bucket := final.bucket
  objectKey := final.objectKey
  mimeType := artifact.mimeType
  format := artifact.format
  size := content.length
  checksumSha256 := deployment.sha256 content
  width := artifact.width
  height := artifact.height
  bitrateKbps := artifact.bitrateKbps
  resolutionLabel := artifact.resolutionLabel

/-- The rows of all artifacts. A missing file or key throws. -/
def variantRows (files : String → Option Bytes) :
    List ProcessedArtifact → List ObjectRef → Option (List MediaVariant)
  | [], _ => some []
  | _ :: _, [] => none
  | artifact :: artifacts, final :: finals =>
      (files artifact.path).bind fun content =>
        (variantRows files artifacts finals).map fun rows =>
          variantRow deployment run artifact final content :: rows

end Keys

/-- After a verified artifact the loop goes on or the transaction starts. -/
def nextUpload (run : Run) (upload : Upload) : Phase :=
  if upload.pending = [] then .committing run upload else .uploading run upload .put

/-- The `catch` block of `publish` removes what it tracked, and `finally` removes the rest. -/
def abortUpload (run : Run) (upload : Upload) (error : String) : Phase :=
  .removing run (upload.temporary ++ upload.finals ++ upload.temporary) (some error)

section Statements

variable (deployment : Deployment) (s : State) (x : ExecutionId)

/-- The upload before its first artifact. -/
def startUpload (run : Run) (result : HandlerResult) (files : String → Option Bytes) : Upload where
  files := files
  artifacts := result.artifacts (workspace deployment run)
  metadata := result.metadata
  pending := result.artifacts (workspace deployment run)
  temporary := []
  finals := []

/-- The statement of `claim` under the time that the call read first. -/
def actClaim (fate : Fate) : Phase → Option Outcome
  | .claiming payload attemptsMade asOf =>
      if fate = .refused then some (s.goto .threw)
      else match claim s.rows payload.generation (mediaJobId payload.mediaId payload.generation)
          deployment.processingLeaseSeconds x asOf, fate with
        | (rows, true), .ok => some (s.writing rows (.reading payload attemptsMade))
        | (rows, false), .ok => some (s.writing rows .returned)
        | (rows, _), _ => some (s.writing rows .threw)
  | _ => none

/-- The read back of the claimed row. -/
def actRead (found : Bool) : Phase → Option Outcome
  | .reading payload attemptsMade =>
      some (s.goto (if found then .starting payload attemptsMade s.rows.media else .threw))
  | _ => none

/-- The row that `createAttempt` inserts when there is none yet. -/
def newAttempt (payload : MediaJobPayloadV1) (attemptsMade : Nat) : ProcessingAttempt where
  id := deployment.attemptName x
  mediaId := payload.mediaId
  generation := payload.generation
  bullAttemptNumber := attemptsMade + 1
  jobId := mediaJobId payload.mediaId payload.generation
  processingProfile := payload.processingProfile
  status := .running
  workerInstanceId := some "worker"

/-- The upsert of `createAttempt`. -/
def actCreateAttempt (fate : Fate) : Phase → Option Outcome
  | .starting payload attemptsMade media =>
      let (rows, attempt) := createAttempt s.rows (newAttempt deployment x payload attemptsMade)
      match fate with
      | .ok => some (s.writing rows (.preparing ⟨payload, attemptsMade, media, attempt.id⟩))
      | .unacknowledged => some (s.writing rows .threw)
      | .refused => some (s.goto .threw)
  | _ => none

/-- The creation of the workspace directory. Its failure is not caught. -/
def actCreateWorkspace (created : Bool) : Phase → Option Outcome
  | .preparing run => some (s.goto (if created then .downloading run else .threw))
  | _ => none

def actDownloadAndVerify (failure : Option String) : Phase → Option Outcome
  | .downloading run =>
      some (s.goto (match failure with
        | none => .handling run
        | some error => .failing run error))
  | _ => none

/-- The handler of the queue produces its files and calls `publish`, or throws. -/
def actHandle (result : Except String (HandlerResult × (String → Option Bytes))) :
    Phase → Option Outcome
  | .handling run =>
      match result with
      | .error error => some (s.goto (.failing run error))
      | .ok (result, files) =>
          some (s.goto (nextUpload run (startUpload deployment run result files)))
  | _ => none

/-- `stat` and `putFile` of the current artifact. -/
def actPut (fate : Fate) (error : String) : Phase → Option Outcome
  | .uploading run upload .put =>
      match upload.pending with
      | [] => none
      | artifact :: _ =>
          match upload.files artifact.path with
          | none => some (s.goto (abortUpload run upload error))
          | some [] => some (s.goto (abortUpload run upload "PROCESSING_OUTPUT_INVALID"))
          | some content =>
              let ref := tempRef deployment run artifact
              match fate with
              | .ok => some (s.storing ref (some content)
                  (.uploading run { upload with temporary := upload.temporary ++ [ref] } .check))
              | .unacknowledged =>
                  some (s.storing ref (some content) (abortUpload run upload error))
              | .refused => some (s.goto (abortUpload run upload error))
  | _ => none

/-- `stat` of the temporary object. The final key is tracked before the copy. -/
def actCheck (failure : Option String) : Phase → Option Outcome
  | .uploading run upload .check =>
      match upload.pending with
      | [] => none
      | artifact :: _ =>
          if (s.objects (tempRef deployment run artifact)).isSome ∧ failure = none then
            some (s.goto (.uploading run
              { upload with finals := upload.finals ++ [finalRef deployment run artifact] } .copy))
          else some (s.goto (abortUpload run upload (failure.getD "NotFound")))
  | _ => none

/-- The server-side copy takes the present bytes of the source. -/
def actCopy (fate : Fate) (error : String) : Phase → Option Outcome
  | .uploading run upload .copy =>
      match upload.pending with
      | [] => none
      | artifact :: _ =>
          match s.objects (tempRef deployment run artifact), fate with
          | some content, .ok => some (s.storing (finalRef deployment run artifact) (some content)
              (.uploading run upload .verify))
          | some content, .unacknowledged =>
              some (s.storing (finalRef deployment run artifact) (some content)
                (abortUpload run upload error))
          | _, _ => some (s.goto (abortUpload run upload error))
  | _ => none

/-- `stat` of the final object ends the work on the current artifact. -/
def actVerify (failure : Option String) : Phase → Option Outcome
  | .uploading run upload .verify =>
      match upload.pending with
      | [] => none
      | artifact :: rest =>
          if (s.objects (finalRef deployment run artifact)).isSome ∧ failure = none then
            some (s.goto (nextUpload run { upload with pending := rest }))
          else some (s.goto (abortUpload run upload (failure.getD "NotFound")))
  | _ => none

/-- The transaction of `publish`. -/
def actPublish (fate : Fate) (error : String) : Phase → Option Outcome
  | .committing run upload =>
      if fate = .refused then some (s.goto (abortUpload run upload error))
      else if s.rows.media.guarded run.payload.generation x = false then
        some (s.goto (abortUpload run upload "PROCESSING_LEASE_LOST"))
      else match variantRows deployment run upload.files upload.artifacts upload.finals with
        | none => some (s.goto (abortUpload run upload "PROCESSING_OUTPUT_INVALID"))
        | some variants =>
            let (rows, _) := (Operation.publish run.attemptId variants upload.metadata).run s.rows
              run.payload.generation x s.now
            some ⟨rows, s.objects, s.publications ++ [⟨x, run, upload⟩],
              if fate = .ok then .removing run upload.temporary none
              else abortUpload run upload error⟩
  | _ => none

/-- One object of a removal. Its failure is swallowed. -/
def actRemove (removed : Bool) : Phase → Option Outcome
  | .removing run (ref :: rest) failure =>
      some (if removed then s.storing ref none (.removing run rest failure)
        else s.goto (.removing run rest failure))
  | .removing run [] none => some (s.goto (.completing run))
  | .removing run [] (some error) => some (s.goto (.failing run error))
  | _ => none

/-- The second `complete` after the handler has published. -/
def actComplete (fate : Fate) (error : String) : Phase → Option Outcome
  | .completing run =>
      let (rows, _) := (Operation.complete run.attemptId).run s.rows run.payload.generation x s.now
      match fate with
      | .ok => some (s.writing rows .returned)
      | .unacknowledged => some (s.writing rows (.failing run error))
      | .refused => some (s.goto (.failing run error))
  | _ => none

/-- The `catch` block marks the failure and throws. -/
def actFail (fate : Fate) : Phase → Option Outcome
  | .failing run message =>
      let final := decide (deployment.mediaJobAttempts ≤ run.attemptsMade + 1)
      let (rows, _) := (Operation.fail run.attemptId final "PROCESSING_FAILED" message).run s.rows
        run.payload.generation x s.now
      some (if fate.tookEffect then s.writing rows .threw else s.goto .threw)
  | _ => none

/-- One statement of an execution. -/
def act (action : Action) (phase : Phase) : Option Outcome :=
  match action with
  | .claim fate => actClaim deployment s x fate phase
  | .read found => actRead s found phase
  | .createAttempt fate => actCreateAttempt deployment s x fate phase
  | .createWorkspace created => actCreateWorkspace s created phase
  | .downloadAndVerify failure => actDownloadAndVerify s failure phase
  | .handle result => actHandle deployment s result phase
  | .put fate error => actPut deployment s fate error phase
  | .check failure => actCheck deployment s failure phase
  | .copy fate error => actCopy deployment s fate error phase
  | .verify failure => actVerify deployment s failure phase
  | .publish fate error => actPublish deployment s x fate error phase
  | .remove removed => actRemove s removed phase
  | .complete fate error => actComplete s x fate error phase
  | .fail fate => actFail deployment s x fate phase

end Statements

/-- A delivery starts an execution. Renewals may still arrive after its end. -/
inductive Event
  | tick (duration : Time)
  | deliver (x : ExecutionId) (payload : MediaJobPayloadV1) (attemptsMade : Nat)
  | run (x : ExecutionId) (action : Action)
  | renew (x : ExecutionId) (generation : Nat) (asOf : Time)
  | crash (x : ExecutionId)
  | retry (id dispatchId : String)
  | outbox (dispatches : List ProcessingDispatch)

/-- The execution has begun and has not ended. -/
def Phase.inFlight : Phase → Bool
  | .idle | .returned | .threw | .crashed => false
  | _ => true

/-- One event of the workers and clients of one media. -/
def step (deployment : Deployment) (s : State) : Event → Option State
  | .tick duration => some { s with now := s.now + duration }
  | .deliver x payload attemptsMade =>
      match s.executions x with
      | .idle =>
          if payload.mediaId = s.rows.media.id then
            some (s.commit x (s.goto (.claiming payload attemptsMade s.now)))
          else none
      | _ => none
  | .run x action => (act deployment s x action (s.executions x)).map (s.commit x)
  | .renew x generation asOf =>
      if asOf ≤ s.now then
        some { s with
          rows := ((Operation.renew deployment.processingLeaseSeconds).run s.rows generation x
            asOf).1 }
      else none
  | .crash x =>
      if (s.executions x).inFlight then some (s.commit x (s.goto .crashed)) else none
  | .retry id dispatchId => (retry s.rows id dispatchId).map fun rows => { s with rows := rows }
  | .outbox dispatches => some { s with rows := { s.rows with dispatches := dispatches } }

/-- A new upload before any delivery, beside any stored objects. -/
def machine (deployment : Deployment) : Machine State Event where
  initial s := s.rows.media.Fresh ∧ s.rows.variants = [] ∧ s.rows.attempts = [] ∧
    (∀ x, s.executions x = .idle) ∧ s.publications = []
  step := step deployment

end PostsMedia.Processing
