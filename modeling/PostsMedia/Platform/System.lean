import PostsMedia.Media.RetryCalls
import PostsMedia.Queues.Dispatchers

namespace PostsMedia.Platform

open MediaService (WorkerEvent)

open Processing (Rows retryDispatch)

/-- One call of `retry` that runs its action. -/
abbrev RetryId := Nat

def mediaNotFound : DomainError where
  code := "MEDIA_NOT_FOUND"
  message := "The requested media does not exist."
  httpStatus := 404

def mediaRetryNotAllowed : DomainError where
  code := "MEDIA_RETRY_NOT_ALLOWED"
  message := "Only failed media can be retried."
  httpStatus := 409

/-- The program point of the transaction of one retry, with the media id as its client spells it.
From its conditional update to its end it holds the lock of the media row. -/
inductive RetryPhase
  | idle
  | reading (id : String)
  | updating (id : String) (current : Media)
  | creating (id : String) (current updated : Media)
  | committing (id : String) (updated : Media) (dispatch : ProcessingDispatch)
  | returned (updated : Media)
  | rejected (error : DomainError)
  | lost (mediaId : String) (generation : Nat)
  | failed

/-- A retry whose conditional update finds no row throws like one that reads another status. -/
def RetryPhase.error : RetryPhase → Option DomainError
  | .rejected error => some error
  | .lost _ _ => some mediaRetryNotAllowed
  | _ => none

/-- A retry that committed. -/
structure Commit where
  retry : RetryId
  mediaId : String
  generation : Nat
  deriving DecidableEq

/-- All media with their outbox. The rows of a media list every dispatch that was committed for it,
also after the cleanup of the outbox. -/
structure State where
  outbox : Outbox.State
  stored : String → Option Rows
  locks : String → Option RetryId
  retries : RetryId → RetryPhase
  commits : List Commit

/-- What the upload services, the workers, the retries and the dispatchers do, in any order. -/
inductive Event
  | upload (postId : String) (firstSortOrder : Nat) (promoted : List PromotedUpload)
      (positions : String → Nat)
  | work (mediaId : String) (event : WorkerEvent)
  | begin (r : RetryId) (id : String)
  | read (r : RetryId)
  | update (r : RetryId)
  | create (r : RetryId) (dispatchId : String)
  | commit (r : RetryId) (position : Nat) (fate : Fate)
  | abort (r : RetryId)
  | outbox (event : Outbox.Event)

/-- The statement updates the media row and waits for its lock. -/
def writesMedia : WorkerEvent → Bool
  | .createAttempt _ => false
  | _ => true

namespace State

variable (s : State)

/-- A retry came to another program point. -/
def goto (r : RetryId) (phase : RetryPhase) : State :=
  { s with retries := Function.update s.retries r phase }

/-- The rows of one media changed. -/
def store (mediaId : String) (rows : Rows) : State :=
  { s with stored := Function.update s.stored mediaId (some rows) }

/-- The transaction of a retry ended and released its lock. -/
def finish (r : RetryId) (phase : RetryPhase) : State :=
  { s.goto r phase with
    locks := fun mediaId => if s.locks mediaId = some r then none else s.locks mediaId }

/-- The inserts of one upload become visible together. -/
def upload (created : List (Media × ProcessingDispatch)) (positions : String → Nat) : State :=
  created.foldl (fun s (media, dispatch) =>
    { s.store media.id ⟨media, [], [], [dispatch]⟩ with
      outbox := s.outbox.insert dispatch (positions dispatch.id) }) s

/-- The transaction of a retry took effect. -/
def apply (r : RetryId) (mediaId : String) (rows : Rows) (updated : Media)
    (dispatch : ProcessingDispatch) (position : Nat) : State :=
  { s.store mediaId { rows with media := updated, dispatches := rows.dispatches ++ [dispatch] } with
    outbox := s.outbox.insert dispatch position
    commits := ⟨r, mediaId, rows.media.processingGeneration⟩ :: s.commits }

end State

/-- Ids are random, so an upload brings new ones. -/
def FreshUploads (s : State) (promoted : List PromotedUpload) : Prop :=
  (promoted.map (·.mediaId)).Nodup ∧ (promoted.map (·.dispatchId)).Nodup ∧
    ∀ upload ∈ promoted, (s.stored upload.mediaId).isNone = true ∧
      upload.dispatchId ∉ s.outbox.created

instance (s : State) (promoted : List PromotedUpload) : Decidable (FreshUploads s promoted) :=
  inferInstanceAs (Decidable (_ ∧ _))

section Steps

variable (settings : Outbox.Settings) (s : State)

/-- A statement of a worker waits while a retry holds the row. -/
def stepWork (mediaId : String) (event : WorkerEvent) : Option State :=
  if writesMedia event = true ∧ (s.locks mediaId).isSome = true then none
  else (s.stored mediaId).map fun rows => s.store mediaId (event.run rows)

/-- `findUnique` and the check of the status. -/
def stepRead (r : RetryId) : Option State :=
  match s.retries r with
  | .reading id =>
      match s.stored (uuidColumn id) with
      | none => some (s.goto r (.rejected mediaNotFound))
      | some rows =>
          if rows.media.processingStatus = .failed then
            some (s.goto r (.updating id rows.media))
          else some (s.goto r (.rejected mediaRetryNotAllowed))
  | _ => none

/-- The conditional update waits for the lock and then sees the committed row. -/
def stepUpdate (r : RetryId) : Option State :=
  match s.retries r with
  | .updating id current =>
      if (s.locks (uuidColumn id)).isSome then none
      else match s.stored (uuidColumn id) with
        | none => some (s.goto r (.lost (uuidColumn id) current.processingGeneration))
        | some rows =>
            if rows.media.processingStatus = .failed ∧
                rows.media.processingGeneration = current.processingGeneration then
              some { s.goto r (.creating id current rows.media.retried) with
                locks := Function.update s.locks (uuidColumn id) (some r) }
            else some (s.goto r (.lost (uuidColumn id) current.processingGeneration))
  | _ => none

/-- The dispatch is built from the row that the transaction read first and from the client's id. -/
def stepCreate (r : RetryId) (dispatchId : String) : Option State :=
  match s.retries r with
  | .creating id current updated =>
      some (s.goto r (.committing id updated (retryDispatch current id dispatchId)))
  | _ => none

def stepCommit (r : RetryId) (position : Nat) (fate : Fate) : Option State :=
  match s.retries r with
  | .committing id updated dispatch =>
      match s.stored (uuidColumn id) with
      | none => none
      | some rows =>
          if dispatch.id ∈ s.outbox.created then none
          else
            let applied := s.apply r (uuidColumn id) rows updated dispatch position
            some (match fate with
              | .ok => applied.finish r (.returned updated)
              | .unacknowledged => applied.finish r .failed
              | .refused => s.finish r .failed)
  | _ => none

/-- A failed statement or a crash rolls the open transaction back. -/
def stepAbort (r : RetryId) : Option State :=
  match s.retries r with
  | .reading _ | .updating _ _ | .creating _ _ _ | .committing _ _ _ => some (s.finish r .failed)
  | _ => none

/-- One event. Only uploads and retries insert dispatches. -/
def step : Event → Option State
  | .upload postId firstSortOrder promoted positions =>
      if FreshUploads s promoted then
        some (s.upload (createAllWithDispatch postId firstSortOrder promoted) positions)
      else none
  | .work mediaId event => stepWork s mediaId event
  | .begin r id =>
      match s.retries r with
      | .idle => some (s.goto r (.reading id))
      | _ => none
  | .read r => stepRead s r
  | .update r => stepUpdate s r
  | .create r dispatchId => stepCreate s r dispatchId
  | .commit r position fate => stepCommit s r position fate
  | .abort r => stepAbort s r
  | .outbox event =>
      match event with
      | .insert .. => none
      | event => (Outbox.step settings s.outbox event).map fun outbox => { s with outbox := outbox }

end Steps

/-- A platform without media. -/
def machine (settings : Outbox.Settings) : Machine State Event where
  initial s := (Outbox.machine settings).initial s.outbox ∧ (∀ mediaId, s.stored mediaId = none) ∧
    (∀ mediaId, s.locks mediaId = none) ∧ (∀ r, s.retries r = .idle) ∧ s.commits = []
  step := step settings

end PostsMedia.Platform
