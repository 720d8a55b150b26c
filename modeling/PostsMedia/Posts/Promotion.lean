import Mathlib.Logic.Function.Basic
import PostsMedia.Library.Machine
import PostsMedia.Posts.Transactions

namespace PostsMedia.Promotion

/-- A file that passed the validation, with the bytes that it was validated from. -/
structure ValidatedFile (sha256 : Bytes → String) where
  upload : ValidatedUpload
  content : Bytes
  size : upload.sizeBytes = content.length
  checksum : upload.checksumSha256 = sha256 content

/-- What a request writes besides its media. -/
inductive Target
  | createPost (post : Post)
  | addPostMedia (postId : String)

def Target.postId : Target → String
  | .createPost post => post.id
  | .addPostMedia postId => postId

/-- One request after its validation. -/
structure Submission (sha256 : Bytes → String) where
  header : Option String
  target : Target
  files : List (ValidatedFile sha256)

/-- The policy for a client's `X-Request-Id`. -/
def safeRequestId (text : String) : Bool :=
  1 ≤ text.length && text.length ≤ 100 && text.toList.all fun c => c.isAlphanum || c = '-'

/-- The middleware keeps a safe header and replaces everything else. -/
def assignRequestId (incoming : Option String) (uuid : String) : String :=
  match incoming with
  | some text => if safeRequestId text then text else uuid
  | none => uuid

/-- All requests of create-post and add-media with the random UUIDs that they draw. -/
structure Intake where
  buckets : StorageBuckets
  sha256 : Bytes → String
  submission : Nat → Submission sha256
  requestUuid : Nat → String
  mediaUuid : Nat → Nat → String
  dispatchUuid : Nat → Nat → String
  presentPost : Post → List Media → Json
  presentAdded : List Media → Json
  postId_plain : ∀ r, '/' ∉ (submission r).target.postId.toList
  mediaUuid_plain : ∀ r index, '/' ∉ (mediaUuid r index).toList
  mediaUuid_injective : ∀ r index r' index', mediaUuid r index = mediaUuid r' index' →
    r = r' ∧ index = index'

namespace Intake

variable (intake : Intake) (r : Nat)

def files : List (ValidatedFile intake.sha256) := (intake.submission r).files

def requestId : String := assignRequestId (intake.submission r).header (intake.requestUuid r)

def postId : String := (intake.submission r).target.postId

def stagingRef (file : ValidatedFile intake.sha256) : ObjectRef :=
  intake.buckets.uploadStagingKey (intake.requestId r) (toString file.upload.fileIndex)

def originalRef (index : Nat) (file : ValidatedFile intake.sha256) : ObjectRef :=
  intake.buckets.originalKey (intake.postId r) (intake.mediaUuid r index) file.upload.extension

/-- The uploads of the transaction. A missing original skips its upload. -/
def promotedUploads (promoted : List ObjectRef) : List PromotedUpload :=
  ((intake.files r).zip promoted).zipIdx.map fun ((file, ref), index) =>
    { upload := file.upload
      mediaId := intake.mediaUuid r index
      dispatchId := intake.dispatchUuid r index
      originalRef := ref }

/-- The domain transaction of the request. -/
def transaction (promoted : List ObjectRef) (tables : Tables) : Option Tables :=
  match (intake.submission r).target with
  | .createPost post =>
      (createPostTransaction intake.presentPost post (intake.promotedUploads r promoted) tables).map
        fun result => result.1 tables
  | .addPostMedia postId =>
      (addPostMediaTransaction intake.presentAdded postId (intake.promotedUploads r promoted)
        tables).map fun result => result.1 tables

end Intake

/-- The program point of one request in its promotion loop. -/
inductive Phase
  | idle
  | staging (index : Nat) (promoted : List ObjectRef)
  | copying (index : Nat) (promoted : List ObjectRef)
  | unstaging (index : Nat) (promoted : List ObjectRef) (failed : Bool)
  | committing (promoted : List ObjectRef)
  | compensating (promoted : List ObjectRef)
  | ended
  deriving DecidableEq

/-- The object storage, the tables and all requests. -/
structure State where
  objects : ObjectRef → Option Bytes
  tables : Tables
  requests : Nat → Phase

/-- One statement of a request, or its end. -/
inductive Event
  | arrive (r : Nat)
  | put (r : Nat) (fate : Fate)
  | copy (r : Nat) (fate : Fate)
  | unstage (r : Nat) (removed : Bool)
  | commit (r : Nat) (fate : Fate)
  | compensate (r : Nat) (removed : Bool)
  | crash (r : Nat)

namespace State

variable (s : State) (r : Nat)

/-- Nothing changes but the program point of one request. -/
def goto (phase : Phase) : State :=
  { s with requests := Function.update s.requests r phase }

/-- The request stored or removed an object. -/
def storing (ref : ObjectRef) (content : Option Bytes) (phase : Phase) : State :=
  { s with
    objects := Function.update s.objects ref content
    requests := Function.update s.requests r phase }

/-- The request committed its transaction. -/
def writing (tables : Tables) (phase : Phase) : State :=
  { s with tables := tables, requests := Function.update s.requests r phase }

end State

section Steps

variable (intake : Intake) (s : State)

/-- The loop goes on with the next upload, or the transaction starts. -/
def nextUpload (r index : Nat) (promoted : List ObjectRef) : Phase :=
  if index < (intake.files r).length then .staging index promoted else .committing promoted

/-- `putFile` of the staging object. Its failure does not remove the staging object. -/
def stepPut (r : Nat) (fate : Fate) : Option State :=
  match s.requests r with
  | .staging index promoted =>
      (intake.files r)[index]?.map fun file =>
        match fate with
        | .ok =>
            s.storing r (intake.stagingRef r file) (some file.content) (.copying index promoted)
        | .unacknowledged =>
            s.storing r (intake.stagingRef r file) (some file.content) (.compensating promoted)
        | .refused => s.goto r (.compensating promoted)
  | _ => none

/-- The server-side copy takes the present bytes of the staging object. -/
def stepCopy (r : Nat) (fate : Fate) : Option State :=
  match s.requests r with
  | .copying index promoted =>
      (intake.files r)[index]?.map fun file =>
        let original := intake.originalRef r index file
        match s.objects (intake.stagingRef r file), fate with
        | some content, .ok =>
            s.storing r original (some content) (.unstaging index (promoted ++ [original]) false)
        | some content, .unacknowledged =>
            s.storing r original (some content) (.unstaging index promoted true)
        | _, _ => s.goto r (.unstaging index promoted true)
  | _ => none

/-- The `finally` of the copy removes the staging object. Its failure is swallowed. -/
def stepUnstage (r : Nat) (removed : Bool) : Option State :=
  match s.requests r with
  | .unstaging index promoted failed =>
      (intake.files r)[index]?.map fun file =>
        let next :=
          if failed then .compensating promoted else nextUpload intake r (index + 1) promoted
        if removed then s.storing r (intake.stagingRef r file) none next else s.goto r next
  | _ => none

/-- The transaction commits all rows or none. -/
def stepCommit (r : Nat) (fate : Fate) : Option State :=
  match s.requests r with
  | .committing promoted =>
      match intake.transaction r promoted s.tables, fate with
      | some tables, .ok => some (s.writing r tables .ended)
      | some tables, .unacknowledged => some (s.writing r tables (.compensating promoted))
      | _, _ => some (s.goto r (.compensating promoted))
  | _ => none

/-- One object of `compensatePromotedOriginals`. -/
def stepCompensate (r : Nat) (removed : Bool) : Option State :=
  match s.requests r with
  | .compensating (ref :: rest) =>
      some (if removed then s.storing r ref none (.compensating rest)
        else s.goto r (.compensating rest))
  | .compensating [] => some (s.goto r .ended)
  | _ => none

/-- One event of the requests. -/
def step : Event → Option State
  | .arrive r => if s.requests r = .idle then some (s.goto r (nextUpload intake r 0 [])) else none
  | .put r fate => stepPut intake s r fate
  | .copy r fate => stepCopy intake s r fate
  | .unstage r removed => stepUnstage intake s r removed
  | .commit r fate => stepCommit intake s r fate
  | .compensate r removed => stepCompensate s r removed
  | .crash r => if s.requests r = .idle then none else some (s.goto r .ended)

end Steps

/-- The requests on tables without media. -/
def machine (intake : Intake) : Machine State Event where
  initial s := s.tables.media = [] ∧ ∀ r, s.requests r = .idle
  step := step intake

end PostsMedia.Promotion
