import Mathlib.Logic.Function.Basic
import PostsMedia.Library.Machine
import PostsMedia.Queues.Outbox

namespace PostsMedia

/-- A producer inserts a row with the defaults of the schema. -/
def ProcessingDispatch.inserted (dispatch : ProcessingDispatch) : Bool :=
  dispatch.status = .pending && dispatch.nextAttemptAt.isNone && dispatch.leaseToken.isNone &&
    dispatch.leaseExpiresAt.isNone

theorem ProcessingDispatch.of_inserted {dispatch : ProcessingDispatch}
    (inserted : dispatch.inserted = true) : dispatch.status = .pending ∧
      dispatch.leaseToken = none ∧ dispatch.leaseExpiresAt = none := by
  simp only [ProcessingDispatch.inserted, Bool.and_eq_true, decide_eq_true_eq,
    Option.isNone_iff_eq_none] at inserted
  exact ⟨inserted.1.1.1, inserted.1.2, inserted.2⟩

/-- The time from which `claimBatch` takes an open row. -/
def ProcessingDispatch.due (dispatch : ProcessingDispatch) : Option Time :=
  match dispatch.status with
  | .pending => some 0
  | .retryWait => dispatch.nextAttemptAt
  | .publishing => dispatch.leaseExpiresAt
  | .published | .dead => none

/-- The candidates of `claimBatch`. Rows that another transaction locks are skipped. -/
def claimCandidates (rows : List ProcessingDispatch) (locked : List String) (batchSize : Nat)
    (now : Time) : List ProcessingDispatch :=
  (rows.filter fun dispatch => dispatch.claimable now && !locked.contains dispatch.id).take
    batchSize

/-- The transaction of `claimBatch` returns the claimed rows. The table is in the order of
`createdAt` and `id`. -/
def claimBatch (rows : List ProcessingDispatch) (locked : List String)
    (batchSize leaseSeconds : Nat) (token : LeaseToken) (now : Time) :
    List ProcessingDispatch × List ProcessingDispatch :=
  let candidates := claimCandidates rows locked batchSize now
  (rows.map fun dispatch =>
      if candidates.any (·.id = dispatch.id) then dispatch.claimed leaseSeconds token now
      else dispatch,
    candidates.map (·.claimed leaseSeconds token now))

end PostsMedia

namespace PostsMedia.Outbox

structure Settings where
  batchSize : Nat
  leaseSeconds : Nat

/-- A call of `queue.add` that succeeded. -/
structure Added where
  queueName : String
  jobName : String
  payload : Json
  jobId : String

/-- The program point of one call of `claimBatch`. -/
inductive Batch
  | idle
  | reading (asOf : Time)
  | ended
  deriving DecidableEq

/-- The program point of one call of `publish`. -/
inductive Publication
  | idle
  | claimed (dispatch : ProcessingDispatch)
  | added (dispatch : ProcessingDispatch)
  | retrying (dispatch : ProcessingDispatch) (errorCode errorMessage : String)
  | dying (dispatch : ProcessingDispatch) (message : String)
  | ended

/-- The outbox table and all dispatchers. A call of `claimBatch` is named by its fresh token. The
last three fields record ids and leases for the proofs. -/
structure State where
  now : Time
  rows : List ProcessingDispatch
  batches : LeaseToken → Batch
  publications : LeaseToken → String → Publication
  queued : List Added
  created : List String
  terms : LeaseToken → String → Option Time
  released : LeaseToken → String → Bool

/-- The statements of the producers, the dispatchers and the cleanup, in any order. -/
inductive Event
  | tick (duration : Time)
  | insert (dispatch : ProcessingDispatch) (position : Nat)
  | begin (token : LeaseToken)
  | claim (token : LeaseToken) (locked : List String) (fate : Fate)
  | add (token : LeaseToken) (id : String) (fate : Fate) (error : String)
  | markPublished (token : LeaseToken) (id : String) (asOf : Time) (fate : Fate) (error : String)
  | markRetryWait (token : LeaseToken) (id : String) (nextAttemptAt : Time) (fate : Fate)
  | markDead (token : LeaseToken) (id : String) (fate : Fate)
  | crash (token : LeaseToken)
  | deletePublished (before : Time)

namespace State

variable (s : State)

/-- The row of the table with this id. -/
def row (id : String) : Option ProcessingDispatch := s.rows.find? (·.id = id)

/-- A new row takes its place in the order of the table. -/
def insert (dispatch : ProcessingDispatch) (position : Nat) : State :=
  { s with
    rows := s.rows.take position ++ dispatch :: s.rows.drop position
    created := dispatch.id :: s.created }

/-- A call of `publish` came to another program point. -/
def publishing (token : LeaseToken) (id : String) (publication : Publication) : State :=
  { s with
    publications := Function.update s.publications token
      (Function.update (s.publications token) id publication) }

/-- The transaction of `claimBatch` took effect. -/
def claiming (token : LeaseToken) (rows claimed : List ProcessingDispatch) : State :=
  { s with
    rows := rows
    batches := Function.update s.batches token .ended
    terms := Function.update s.terms token fun id =>
      (claimed.find? (·.id = id)).bind (·.leaseExpiresAt) }

/-- The caller of `claimBatch` publishes each row that it was handed. -/
def handing (token : LeaseToken) (claimed : List ProcessingDispatch) : State :=
  { s with
    publications := Function.update s.publications token fun id =>
      match claimed.find? (·.id = id) with
      | some dispatch => .claimed dispatch
      | none => s.publications token id }

/-- An update that only the owner of a dispatch may make. -/
def mark (token : LeaseToken) (id : String)
    (change : ProcessingDispatch → ProcessingDispatch) : State :=
  { s with
    rows := updateOwned s.rows id token change
    released := if s.rows.any (·.owned id token) then
        Function.update s.released token (Function.update (s.released token) id true)
      else s.released }

end State

section Steps

variable (settings : Settings) (s : State)

def stepClaim (token : LeaseToken) (locked : List String) (fate : Fate) : Option State :=
  match s.batches token with
  | .reading asOf =>
      let (rows, claimed) := claimBatch s.rows locked settings.batchSize settings.leaseSeconds token
        asOf
      some (match fate with
        | .ok => (s.claiming token rows claimed).handing token claimed
        | .unacknowledged => s.claiming token rows claimed
        | .refused => { s with batches := Function.update s.batches token .ended })
  | _ => none

/-- The checks and `queue.add` of `publish`. -/
def stepAdd (token : LeaseToken) (id : String) (fate : Fate) (error : String) : Option State :=
  match s.publications token id with
  | .claimed dispatch =>
      match dispatch.checked with
      | .error message => some (s.publishing token id (.dying dispatch message))
      | .ok payload =>
          let job := ⟨queueNameFor payload.mediaType, dispatch.jobName, dispatch.payload,
            dispatch.jobId⟩
          some (if fate = .ok then
              { s with queued := s.queued ++ [job] }.publishing token id (.added dispatch)
            else s.publishing token id (.retrying dispatch "REDIS_PUBLISH_FAILED" error))
  | _ => none

def stepMarkPublished (token : LeaseToken) (id : String) (asOf : Time) (fate : Fate)
    (error : String) : Option State :=
  match s.publications token id with
  | .added dispatch =>
      let marked := s.mark token dispatch.id (ProcessingDispatch.markPublished asOf)
      some ((if fate.tookEffect then marked else s).publishing token id
        (if fate = .ok then .ended else .retrying dispatch "OUTBOX_FINALIZATION_FAILED" error))
  | _ => none

/-- The backoff draws a random delay. -/
def stepMarkRetryWait (token : LeaseToken) (id : String) (nextAttemptAt : Time) (fate : Fate) :
    Option State :=
  match s.publications token id with
  | .retrying dispatch errorCode errorMessage =>
      let marked := s.mark token dispatch.id
        (ProcessingDispatch.markRetryWait nextAttemptAt errorCode errorMessage)
      some ((if fate.tookEffect then marked else s).publishing token id .ended)
  | _ => none

def stepMarkDead (token : LeaseToken) (id : String) (fate : Fate) : Option State :=
  match s.publications token id with
  | .dying dispatch message =>
      let marked := s.mark token dispatch.id
        (ProcessingDispatch.markDead "OUTBOX_MAPPING_INVALID" message)
      some ((if fate.tookEffect then marked else s).publishing token id .ended)
  | _ => none

/-- One statement. Ids are random, so an id is never inserted twice. -/
def step : Event → Option State
  | .tick duration => some { s with now := s.now + duration }
  | .insert dispatch position =>
      if dispatch.inserted ∧ dispatch.id ∉ s.created then some (s.insert dispatch position)
      else none
  | .begin token =>
      if s.batches token = .idle then
        some { s with batches := Function.update s.batches token (.reading s.now) }
      else none
  | .claim token locked fate => stepClaim settings s token locked fate
  | .add token id fate error => stepAdd s token id fate error
  | .markPublished token id asOf fate error => stepMarkPublished s token id asOf fate error
  | .markRetryWait token id nextAttemptAt fate => stepMarkRetryWait s token id nextAttemptAt fate
  | .markDead token id fate => stepMarkDead s token id fate
  | .crash token =>
      some { s with
        batches := Function.update s.batches token .ended
        publications := Function.update s.publications token fun _ => .ended }
  | .deletePublished before => some { s with rows := deletePublishedBefore s.rows before }

end Steps

/-- An empty outbox before any dispatcher ran. -/
def machine (settings : Settings) : Machine State Event where
  initial s := s.rows = [] ∧ (∀ token, s.batches token = .idle) ∧
    (∀ token id, s.publications token id = .idle) ∧ s.queued = [] ∧ s.created = [] ∧
    (∀ token id, s.terms token id = none) ∧ ∀ token id, s.released token id = false
  step := step settings

end PostsMedia.Outbox
