import PostsMedia.Media.Repository
import PostsMedia.Processing.Orchestrator
import PostsMedia.Queues.Outbox

namespace PostsMedia.Processing

/-- The workers with the outbox. The retry that starts a generation draws its dispatch id. -/
structure Fleet extends Deployment where
  outboxLeaseSeconds : Nat
  dispatchName : Nat → String
  dispatchName_injective : ∀ generation generation',
    dispatchName generation = dispatchName generation' → generation = generation'

/-- The program point of one publication of one claimed dispatch. -/
inductive Publisher
  | idle
  | claimed (dispatch : ProcessingDispatch)
  | added (dispatch : ProcessingDispatch)
  | retrying (dispatch : ProcessingDispatch) (errorCode errorMessage : String)
  | dying (dispatch : ProcessingDispatch) (message : String)
  | ended

/-- The workers and rows of one media, its BullMQ jobs and the publications of its dispatches. -/
structure FleetState where
  system : State
  jobs : String → Job
  publishers : LeaseToken → String → Publisher

/-- What happens to one media between its upload and the end of its processing. -/
inductive FleetEvent
  | work (event : Event)
  | deliver (x : ExecutionId) (jobId : String)
  | redeliver (x : ExecutionId) (jobId : String)
  | acknowledge (x : ExecutionId) (jobId : String)
  | expire (jobId : String)
  | retry (id : String)
  | claimDispatch (token : LeaseToken) (dispatchId : String) (asOf : Time)
  | add (token : LeaseToken) (dispatchId : String) (fate : Fate) (error : String)
  | markPublished (token : LeaseToken) (dispatchId : String) (fate : Fate) (error : String)
  | markRetryWait (token : LeaseToken) (dispatchId : String) (fate : Fate) (delay : Time)
  | markDead (token : LeaseToken) (dispatchId : String) (fate : Fate)
  | deletePublished (before : Time)

namespace FleetState

variable (s : FleetState)

def media : Media := s.system.rows.media

def dispatches : List ProcessingDispatch := s.system.rows.dispatches

/-- The job of a generation of the media. -/
def job (generation : Nat) : Job := s.jobs (mediaJobId s.media.id generation)

/-- The outbox wrote its rows. -/
def storing (dispatches : List ProcessingDispatch) : FleetState :=
  { s with system := { s.system with rows := { s.system.rows with dispatches := dispatches } } }

/-- The queue changed one job. -/
def queueing (jobId : String) (job : Job) : FleetState :=
  { s with jobs := Function.update s.jobs jobId job }

/-- A publication came to another program point. -/
def publishing (token : LeaseToken) (dispatchId : String) (publisher : Publisher) : FleetState :=
  { s with
    publishers := Function.update s.publishers token
      (Function.update (s.publishers token) dispatchId publisher) }

end FleetState

section Steps

variable (fleet : Fleet) (s : FleetState)

/-- The workers take one of their own steps. The other steps of their system have events below. -/
def stepWork (event : Event) : Option FleetState :=
  match event with
  | .deliver .. | .retry .. | .outbox _ => none
  | event => (step fleet.toDeployment s.system event).map fun system => { s with system := system }

/-- A worker starts an execution of a job. -/
def startJob (x : ExecutionId) (jobId : String) (payload : MediaJobPayloadV1)
    (attemptsMade : Nat) : Option FleetState :=
  (step fleet.toDeployment s.system (.deliver x payload attemptsMade)).map fun system =>
    { s with
      system := system
      jobs := Function.update s.jobs jobId (.active payload attemptsMade x) }

/-- A waiting job is delivered. -/
def stepDeliver (x : ExecutionId) (jobId : String) : Option FleetState :=
  match s.jobs jobId with
  | .waiting payload attemptsMade => startJob fleet s x jobId payload attemptsMade
  | _ => none

/-- An active job whose worker crashed, in the execution or after its end, is delivered again. -/
def stepRedeliver (x : ExecutionId) (jobId : String) : Option FleetState :=
  match s.jobs jobId with
  | .active payload attemptsMade y =>
      if (s.system.executions y).inFlight then none
      else startJob fleet s x jobId payload attemptsMade
  | _ => none

/-- The end of the processor ends its job or its attempt. -/
def stepAcknowledge (x : ExecutionId) (jobId : String) : Option FleetState :=
  match s.jobs jobId with
  | .active payload attemptsMade y =>
      if y = x then
        match s.system.executions x with
        | .returned => some (s.queueing jobId .completed)
        | .threw =>
            some (s.queueing jobId (.throw fleet.mediaJobAttempts payload attemptsMade))
        | _ => none
      else none
  | _ => none

/-- One row of a batch that one dispatcher claims under one token. -/
def stepClaimDispatch (token : LeaseToken) (dispatchId : String) (asOf : Time) :
    Option FleetState :=
  match s.publishers token dispatchId with
  | .idle =>
      if asOf ≤ s.system.now then
        (PostsMedia.claimDispatch s.dispatches dispatchId fleet.outboxLeaseSeconds token asOf).map
          fun (dispatches, dispatch) =>
            (s.storing dispatches).publishing token dispatchId (.claimed dispatch)
      else none
  | _ => none

/-- The checks and `queue.add` of `publish`. -/
def stepAdd (token : LeaseToken) (dispatchId : String) (fate : Fate) (error : String) :
    Option FleetState :=
  match s.publishers token dispatchId with
  | .claimed dispatch =>
      match dispatch.checked with
      | .error message => some (s.publishing token dispatchId (.dying dispatch message))
      | .ok payload =>
          let added := s.queueing dispatch.jobId ((s.jobs dispatch.jobId).add payload)
          let failed := Publisher.retrying dispatch "REDIS_PUBLISH_FAILED" error
          some (match fate with
            | .ok => added.publishing token dispatchId (.added dispatch)
            | .unacknowledged => added.publishing token dispatchId failed
            | .refused => s.publishing token dispatchId failed)
  | _ => none

/-- The outbox row after the add. A failure of the statement goes to the retry. -/
def stepMarkPublished (token : LeaseToken) (dispatchId : String) (fate : Fate) (error : String) :
    Option FleetState :=
  match s.publishers token dispatchId with
  | .added dispatch =>
      let marked := s.storing (updateOwned s.dispatches dispatch.id token
        (ProcessingDispatch.markPublished s.system.now))
      some ((if fate.tookEffect then marked else s).publishing token dispatchId
        (if fate = .ok then .ended else .retrying dispatch "OUTBOX_FINALIZATION_FAILED" error))
  | _ => none

/-- The backoff draws a random delay. -/
def stepMarkRetryWait (token : LeaseToken) (dispatchId : String) (fate : Fate) (delay : Time) :
    Option FleetState :=
  match s.publishers token dispatchId with
  | .retrying dispatch errorCode errorMessage =>
      let marked := s.storing (updateOwned s.dispatches dispatch.id token
        (ProcessingDispatch.markRetryWait (s.system.now + delay) errorCode errorMessage))
      some ((if fate.tookEffect then marked else s).publishing token dispatchId .ended)
  | _ => none

def stepMarkDead (token : LeaseToken) (dispatchId : String) (fate : Fate) : Option FleetState :=
  match s.publishers token dispatchId with
  | .dying dispatch message =>
      let marked := s.storing (updateOwned s.dispatches dispatch.id token
        (ProcessingDispatch.markDead "OUTBOX_MAPPING_INVALID" message))
      some ((if fate.tookEffect then marked else s).publishing token dispatchId .ended)
  | _ => none

/-- One event of the workers, the queue, the outbox and the clients. -/
def fleetStep : FleetEvent → Option FleetState
  | .work event => stepWork fleet s event
  | .deliver x jobId => stepDeliver fleet s x jobId
  | .redeliver x jobId => stepRedeliver fleet s x jobId
  | .acknowledge x jobId => stepAcknowledge fleet s x jobId
  | .expire jobId => (s.jobs jobId).expire.map (s.queueing jobId)
  | .retry id =>
      (step fleet.toDeployment s.system
        (.retry id (fleet.dispatchName (s.media.processingGeneration + 1)))).map fun system =>
          { s with system := system }
  | .claimDispatch token dispatchId asOf => stepClaimDispatch fleet s token dispatchId asOf
  | .add token dispatchId fate error => stepAdd s token dispatchId fate error
  | .markPublished token dispatchId fate error => stepMarkPublished s token dispatchId fate error
  | .markRetryWait token dispatchId fate delay => stepMarkRetryWait s token dispatchId fate delay
  | .markDead token dispatchId fate => stepMarkDead s token dispatchId fate
  | .deletePublished before => some (s.storing (deletePublishedBefore s.dispatches before))

end Steps

/-- One committed upload before anybody published or processed it. -/
def fleetMachine (fleet : Fleet) : Machine FleetState FleetEvent where
  initial s := (machine fleet.toDeployment).initial s.system ∧
    (∃ input, input.dispatchId = fleet.dispatchName 1 ∧
      s.media = (createWithDispatch input).1 ∧ s.dispatches = [(createWithDispatch input).2]) ∧
    (∀ jobId, s.jobs jobId = .absent) ∧ ∀ token dispatchId, s.publishers token dispatchId = .idle
  step := fleetStep fleet

end PostsMedia.Processing
