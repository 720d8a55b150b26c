import Mathlib.Logic.Function.Basic
import PostsMedia.Library.Machine
import PostsMedia.Idempotency.Record

namespace PostsMedia.Idempotency

/-- Each call draws its own lease token, so the call names the token. -/
abbrev CallId := Nat

abbrev Row := IdempotencyRequest CallId

/-- Create-post and add-media finalize inside their transaction. The retry wraps its action. -/
inductive Service
  | createPost
  | addPostMedia
  | retryMedia
  deriving DecidableEq, Repr

def Service.operation : Service → IdempotencyOperation
  | .createPost => .createPost
  | .addPostMedia => .addPostMedia
  | .retryMedia => .retryMedia

/-- The service passes its transaction client to `finalize`. -/
def Service.joins : Service → Bool
  | .retryMedia => false
  | _ => true

/-- The calls on one key, their inputs, their domain writes and the steps of everybody else. -/
structure Setting (δ η : Type) where
  ttlHours : Nat
  leaseSeconds : Nat
  service : CallId → Service
  fingerprint : CallId → String
  action : CallId → δ → Option ((δ → δ) × IdempotentOutcome)
  environment : η → δ → Option δ

/-- What the caller of a service sees at the end. -/
inductive Result
  | returned (outcome : IdempotentOutcome) (replayed : Bool)
  | threw (error : DomainError)
  | failed

/-- The program point of one call. -/
inductive Phase (δ : Type)
  | idle
  | creating (now : Time)
  | finding (leaseExpiresAt : Time)
  | deciding (leaseExpiresAt : Time) (existing : Row)
  | reclaiming (leaseExpiresAt asOf : Time)
  | acquired
  | rejecting (error : DomainError)
  | committing (write : δ → δ) (outcome : IdempotentOutcome) (finalizedAt : Time)
  | finalizing (outcome : IdempotentOutcome)
  | marking
  | settled (result : Result)
  | crashed

/-- A call with its program point. The last two fields record its lease for the proofs. -/
structure Call (δ : Type) where
  phase : Phase δ
  lease : Option Time
  released : Bool

/-- The shared state of one key: its row, the row lock, the domain tables and all calls. -/
structure State (δ : Type) where
  now : Time
  row : Option Row
  lock : Option CallId
  domain : δ
  committed : List CallId
  calls : CallId → Call δ

variable {δ η : Type}

namespace State

/-- The call moves to its next program point. -/
def move (s : State δ) (r : CallId) (phase : Phase δ) : State δ :=
  { s with calls := Function.update s.calls r { s.calls r with phase := phase } }

/-- The row now carries the lease of this call. -/
def lease (s : State δ) (r : CallId) (row : Row) (expiry : Time) : State δ :=
  { s with
    row := some row
    calls := Function.update s.calls r { s.calls r with lease := some expiry } }

/-- This call wrote the row for the last time. -/
def release (s : State δ) (r : CallId) (change : Row → Row) : State δ :=
  { s with
    row := s.row.map change
    calls := Function.update s.calls r
      { s.calls r with released := (s.calls r).released || s.row.isSome } }

/-- The domain transaction of this call takes effect. -/
def apply (s : State δ) (r : CallId) (write : δ → δ) : State δ :=
  { s with domain := write s.domain, committed := r :: s.committed }

/-- The transaction of this call ends and gives up its row lock. -/
def unlock (s : State δ) (r : CallId) : State δ :=
  { s with lock := if s.lock = some r then none else s.lock }

/-- The row still carries the lease token that this call stored. -/
def holds (s : State δ) (r : CallId) : Prop := s.row.bind (·.leaseToken) = some r

instance (s : State δ) (r : CallId) : Decidable (s.holds r) :=
  inferInstanceAs (Decidable (_ = _))

section Frames

variable (s : State δ) (r q : CallId) (phase : Phase δ) (row : Row) (expiry : Time)
variable (change : Row → Row) (write : δ → δ)

@[simp] theorem move_now : (s.move r phase).now = s.now := rfl
@[simp] theorem move_row : (s.move r phase).row = s.row := rfl
@[simp] theorem move_lock : (s.move r phase).lock = s.lock := rfl
@[simp] theorem move_domain : (s.move r phase).domain = s.domain := rfl
@[simp] theorem move_committed : (s.move r phase).committed = s.committed := rfl
@[simp] theorem move_holds : (s.move r phase).holds q ↔ s.holds q := Iff.rfl

@[simp] theorem move_phase :
    ((s.move r phase).calls q).phase = if q = r then phase else (s.calls q).phase := by
  by_cases same : q = r
  · subst same; simp [move]
  · simp [move, same]

@[simp] theorem move_lease : ((s.move r phase).calls q).lease = (s.calls q).lease := by
  by_cases same : q = r
  · subst same; simp [move]
  · simp [move, Function.update_of_ne same]

@[simp] theorem move_released : ((s.move r phase).calls q).released = (s.calls q).released := by
  by_cases same : q = r
  · subst same; simp [move]
  · simp [move, Function.update_of_ne same]

@[simp] theorem lease_now : (s.lease r row expiry).now = s.now := rfl
@[simp] theorem lease_row : (s.lease r row expiry).row = some row := rfl
@[simp] theorem lease_lock : (s.lease r row expiry).lock = s.lock := rfl
@[simp] theorem lease_committed : (s.lease r row expiry).committed = s.committed := rfl
@[simp] theorem lease_domain : (s.lease r row expiry).domain = s.domain := rfl

@[simp] theorem lease_phase :
    ((s.lease r row expiry).calls q).phase = (s.calls q).phase := by
  by_cases same : q = r
  · subst same; simp [lease]
  · simp [lease, Function.update_of_ne same]

@[simp] theorem lease_lease :
    ((s.lease r row expiry).calls q).lease = if q = r then some expiry else (s.calls q).lease := by
  by_cases same : q = r
  · subst same; simp [lease]
  · simp [lease, same]

@[simp] theorem lease_released :
    ((s.lease r row expiry).calls q).released = (s.calls q).released := by
  by_cases same : q = r
  · subst same; simp [lease]
  · simp [lease, Function.update_of_ne same]

@[simp] theorem release_now : (s.release r change).now = s.now := rfl
@[simp] theorem release_row : (s.release r change).row = s.row.map change := rfl
@[simp] theorem release_lock : (s.release r change).lock = s.lock := rfl
@[simp] theorem release_committed : (s.release r change).committed = s.committed := rfl
@[simp] theorem release_domain : (s.release r change).domain = s.domain := rfl

@[simp] theorem release_phase : ((s.release r change).calls q).phase = (s.calls q).phase := by
  by_cases same : q = r
  · subst same; simp [release]
  · simp [release, Function.update_of_ne same]

@[simp] theorem release_lease : ((s.release r change).calls q).lease = (s.calls q).lease := by
  by_cases same : q = r
  · subst same; simp [release]
  · simp [release, Function.update_of_ne same]

@[simp] theorem release_released :
    ((s.release r change).calls q).released =
      ((s.calls q).released || (decide (q = r) && s.row.isSome)) := by
  by_cases same : q = r
  · subst same; simp [release]
  · simp [release, same]

@[simp] theorem apply_now : (s.apply r write).now = s.now := rfl
@[simp] theorem apply_row : (s.apply r write).row = s.row := rfl
@[simp] theorem apply_lock : (s.apply r write).lock = s.lock := rfl
@[simp] theorem apply_calls : (s.apply r write).calls = s.calls := rfl
@[simp] theorem apply_domain : (s.apply r write).domain = write s.domain := rfl
@[simp] theorem apply_committed : (s.apply r write).committed = r :: s.committed := rfl

@[simp] theorem unlock_now : (s.unlock r).now = s.now := rfl
@[simp] theorem unlock_row : (s.unlock r).row = s.row := rfl
@[simp] theorem unlock_calls : (s.unlock r).calls = s.calls := rfl
@[simp] theorem unlock_domain : (s.unlock r).domain = s.domain := rfl
@[simp] theorem unlock_committed : (s.unlock r).committed = s.committed := rfl

/-- Only the lock owner loses the lock. -/
@[simp] theorem unlock_lock_eq_some :
    (s.unlock r).lock = some q ↔ s.lock = some q ∧ q ≠ r := by
  by_cases owner : s.lock = some r
  · simp only [unlock, owner, if_true, reduceCtorEq, Option.some.injEq, false_iff, not_and,
      Decidable.not_not]
    exact fun same => same.symm
  · simp only [unlock, if_neg owner, iff_self_and]
    rintro held rfl
    exact owner held

end Frames

end State

/-- A call advances by one statement. The other events are the clock, the cleanup and the rest
of the system. -/
inductive Event (η : Type)
  | tick (duration : Time)
  | environment (event : η)
  | removeExpired (now : Time)
  | acquire (r : CallId)
  | create (r : CallId) (fate : Fate)
  | find (r : CallId) (fate : Fate)
  | decide (r : CallId)
  | reclaim (r : CallId) (fate : Fate)
  | reject (r : CallId) (error : DomainError)
  | abandon (r : CallId)
  | fail (r : CallId)
  | finalizeRejection (r : CallId) (fate : Fate)
  | finalizeInTransaction (r : CallId) (fate : Fate)
  | commit (r : CallId) (fate : Fate)
  | act (r : CallId) (fate : Fate)
  | finalize (r : CallId) (fate : Fate)
  | markRetryableFailure (r : CallId) (fate : Fate)
  | crash (r : CallId)

section Steps

variable (setting : Setting δ η) (s : State δ)

/-- `acquire` reads the clock before its insert. -/
def stepAcquire (r : CallId) : Option (State δ) :=
  match (s.calls r).phase with
  | .idle => some (s.move r (.creating s.now))
  | _ => none

/-- The insert of `acquire`. A present key raises the unique violation. -/
def stepCreate (r : CallId) (fate : Fate) : Option (State δ) :=
  match (s.calls r).phase with
  | .creating now =>
      let leaseExpiresAt := now + setting.leaseSeconds * 1000
      let expiresAt := now + setting.ttlHours * 3600000
      let row := IdempotencyRequest.create (setting.service r).operation (setting.fingerprint r) r
        leaseExpiresAt expiresAt
      match s.row, fate with
      | none, .ok => some ((s.lease r row leaseExpiresAt).move r .acquired)
      | none, .unacknowledged => some ((s.lease r row leaseExpiresAt).move r (.settled .failed))
      | some _, .ok => some (s.move r (.finding leaseExpiresAt))
      | _, _ => some (s.move r (.settled .failed))
  | _ => none

/-- The read of `reconcileExisting`. A vanished row starts `acquire` again. -/
def stepFind (r : CallId) (fate : Fate) : Option (State δ) :=
  match (s.calls r).phase with
  | .finding leaseExpiresAt =>
      match fate, s.row with
      | .ok, none => some (s.move r (.creating s.now))
      | .ok, some row => some (s.move r (.deciding leaseExpiresAt row))
      | _, _ => some (s.move r (.settled .failed))
  | _ => none

/-- Create-post and add-media throw a stored rejection again. The retry returns every outcome. -/
def replayResult (service : Service) (outcome : IdempotentOutcome) : Result :=
  if service.joins = true ∧ 400 ≤ outcome.responseStatus then
    .threw (outcomeToDomainError outcome)
  else .returned outcome true

/-- `reconcileExisting` decides on the row that it read and on the present time. -/
def stepDecide (r : CallId) : Option (State δ) :=
  match (s.calls r).phase with
  | .deciding leaseExpiresAt existing =>
      match reconcileExisting existing (setting.fingerprint r) s.now with
      | .settled (.replay outcome) =>
          some (s.move r (.settled (replayResult (setting.service r) outcome)))
      | .settled .conflict => some (s.move r (.settled (.threw keyReusedError)))
      | .settled _ => some (s.move r (.settled (.threw requestInProgressError)))
      | .reclaim => some (s.move r (.reclaiming leaseExpiresAt s.now))
  | _ => none

/-- The conditional update of `reconcileExisting`. It waits for the row lock. -/
def stepReclaim (r : CallId) (fate : Fate) : Option (State δ) :=
  match (s.calls r).phase, s.lock, fate with
  | .reclaiming _ _, none, .refused => some (s.move r (.settled .failed))
  | .reclaiming leaseExpiresAt asOf, none, fate =>
      match s.row.filter (·.reclaims (setting.fingerprint r) asOf) with
      | some row =>
          some ((s.lease r (row.reclaim r leaseExpiresAt) leaseExpiresAt).move r
            (if fate = .ok then .acquired else .settled .failed))
      | none =>
          some (s.move r (.settled
            (if fate = .ok then .threw requestInProgressError else .failed)))
  | _, _, _ => none

/-- A service rejects the request for good before any domain write. -/
def stepReject (r : CallId) (error : DomainError) : Option (State δ) :=
  match (s.calls r).phase, (setting.service r).joins with
  | .acquired, true => some (s.move r (.rejecting error))
  | _, _ => none

/-- A lookup or the validation throws outside both `try` blocks of a service. -/
def stepAbandon (r : CallId) : Option (State δ) :=
  match (s.calls r).phase, (setting.service r).joins with
  | .acquired, true => some (s.move r (.settled .failed))
  | _, _ => none

/-- The promotion, the transaction or the wrapped action throws into a `catch` block. -/
def stepFail (r : CallId) : Option (State δ) :=
  match (s.calls r).phase with
  | .acquired => some (s.move r .marking)
  | _ => none

/-- The standalone `finalize` of a rejection. Its own failure is not caught. -/
def stepFinalizeRejection (r : CallId) (fate : Fate) : Option (State δ) :=
  match (s.calls r).phase, s.lock with
  | .rejecting error, none =>
      let outcome := domainErrorToOutcome error
      match fate with
      | .ok => some ((s.release r (·.finalize outcome s.now)).move r (.settled (.threw error)))
      | .unacknowledged => some ((s.release r (·.finalize outcome s.now)).move r (.settled .failed))
      | .refused => some (s.move r (.settled .failed))
  | _, _ => none

/-- The `finalize` statement inside the domain transaction locks the row, if there is one. -/
def stepFinalizeInTransaction (r : CallId) (fate : Fate) : Option (State δ) :=
  match (s.calls r).phase, (setting.service r).joins, s.lock with
  | .acquired, true, none =>
      match setting.action r s.domain, fate with
      | some (write, outcome), .ok =>
          some ({ s with lock := s.row.map fun _ => r }.move r (.committing write outcome s.now))
      | _, _ => some (s.move r .marking)
  | _, _, _ => none

/-- The commit publishes the domain writes together with the row that the transaction locked. -/
def stepCommit (r : CallId) (fate : Fate) : Option (State δ) :=
  match (s.calls r).phase with
  | .committing write outcome finalizedAt =>
      let finalized :=
        if s.lock = some r then s.release r (·.finalize outcome finalizedAt) else s
      match fate with
      | .ok => some (((finalized.apply r write).unlock r).move r
          (.settled (.returned outcome false)))
      | .unacknowledged => some (((finalized.apply r write).unlock r).move r .marking)
      | .refused => some ((s.unlock r).move r .marking)
  | _ => none

/-- The action that `executeIdempotent` wraps commits its own transaction. -/
def stepAct (r : CallId) (fate : Fate) : Option (State δ) :=
  match (s.calls r).phase, (setting.service r).joins with
  | .acquired, false =>
      match setting.action r s.domain, fate with
      | some (write, outcome), .ok => some ((s.apply r write).move r (.finalizing outcome))
      | some (write, _), .unacknowledged => some ((s.apply r write).move r .marking)
      | _, _ => some (s.move r .marking)
  | _, _ => none

/-- The standalone `finalize` of `executeIdempotent`. -/
def stepFinalize (r : CallId) (fate : Fate) : Option (State δ) :=
  match (s.calls r).phase, s.lock with
  | .finalizing outcome, none =>
      match fate with
      | .ok => some ((s.release r (·.finalize outcome s.now)).move r
          (.settled (.returned outcome false)))
      | .unacknowledged => some ((s.release r (·.finalize outcome s.now)).move r .marking)
      | .refused => some (s.move r .marking)
  | _, _ => none

/-- `markRetryableFailure` swallows its own failure. -/
def stepMarkRetryableFailure (r : CallId) (fate : Fate) : Option (State δ) :=
  match (s.calls r).phase, s.lock with
  | .marking, none =>
      if fate.tookEffect then
        some ((s.release r (·.markRetryableFailure)).move r (.settled .failed))
      else some (s.move r (.settled .failed))
  | _, _ => none

/-- `removeExpired` deletes every row whose time is over. It waits for the row lock. -/
def stepRemoveExpired (now : Time) : Option (State δ) :=
  if now ≤ s.now then
    match s.row.filter (·.expiresAt ≤ now), s.lock with
    | some _, none => some { s with row := none }
    | some _, some _ => none
    | none, _ => some s
  else none

/-- The database rolls back the transaction of a crashed call. -/
def stepCrash (r : CallId) : Option (State δ) := some ((s.unlock r).move r .crashed)

end Steps

/-- One event of the calls on one key. -/
def step (setting : Setting δ η) (s : State δ) : Event η → Option (State δ)
  | .tick duration => some { s with now := s.now + duration }
  | .environment event => (setting.environment event s.domain).map fun domain =>
      { s with domain := domain }
  | .removeExpired now => stepRemoveExpired s now
  | .acquire r => stepAcquire s r
  | .create r fate => stepCreate setting s r fate
  | .find r fate => stepFind s r fate
  | .decide r => stepDecide setting s r
  | .reclaim r fate => stepReclaim setting s r fate
  | .reject r error => stepReject setting s r error
  | .abandon r => stepAbandon setting s r
  | .fail r => stepFail s r
  | .finalizeRejection r fate => stepFinalizeRejection s r fate
  | .finalizeInTransaction r fate => stepFinalizeInTransaction setting s r fate
  | .commit r fate => stepCommit s r fate
  | .act r fate => stepAct setting s r fate
  | .finalize r fate => stepFinalize s r fate
  | .markRetryableFailure r fate => stepMarkRetryableFailure s r fate
  | .crash r => stepCrash s r

/-- At the start the key is unused and every call is idle. -/
def State.fresh (now : Time) (domain : δ) : State δ where
  now := now
  row := none
  lock := none
  domain := domain
  committed := []
  calls _ := ⟨.idle, none, false⟩

/-- The machine of all calls on one key, from any clock and any domain state. -/
def machine (setting : Setting δ η) : Machine (State δ) (Event η) where
  initial s := ∃ now domain, s = State.fresh now domain
  step := step setting

end PostsMedia.Idempotency
