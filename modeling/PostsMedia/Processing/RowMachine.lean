import Mathlib.Data.Nat.Basic
import PostsMedia.Library.Lease
import PostsMedia.Processing.Claims

namespace PostsMedia.Processing

/-- The rows of one media under one clock. The last two fields record every lease for the proofs. -/
structure RowState where
  now : Time
  rows : Rows
  terms : LeaseToken → Option Time
  released : LeaseToken → Bool

/-- The database statements of any number of workers and clients, in any order. Each one carries
the time that its caller read before it. -/
inductive RowEvent
  | tick (duration : Time)
  | claim (generation : Nat) (jobId : String) (leaseSeconds : Nat) (token : LeaseToken)
      (asOf : Time)
  | operate (operation : Operation) (generation : Nat) (token : LeaseToken) (asOf : Time)
  | createAttempt (created : ProcessingAttempt)
  | retry (id dispatchId : String)
  | outbox (dispatches : List ProcessingDispatch)

namespace RowState

/-- The lease that the row stores. -/
def storedLease (media : Media) : Option (LeaseToken × Time) :=
  media.processingLeaseToken.bind fun token =>
    media.processingLeaseExpiresAt.map fun expiry => (token, expiry)

/-- The recorded term of a token after a statement that took effect. -/
def record (s : RowState) (token : LeaseToken) (rows : Rows) : RowState :=
  { s with
    rows := rows
    terms := Function.update s.terms token rows.media.processingLeaseExpiresAt }

/-- The holder gave the lease up with this statement. -/
def giveUp (s : RowState) (token : LeaseToken) (rows : Rows) : RowState :=
  { s with rows := rows, released := Function.update s.released token true }

end RowState

/-- One statement. A claim brings a token that was never granted. -/
def rowStep (s : RowState) : RowEvent → Option RowState
  | .tick duration => some { s with now := s.now + duration }
  | .claim generation jobId leaseSeconds token asOf =>
      if asOf ≤ s.now ∧ s.terms token = none then
        match claim s.rows generation jobId leaseSeconds token asOf with
        | (rows, true) => some (s.record token rows)
        | (_, false) => some s
      else none
  | .operate operation generation token asOf =>
      if asOf ≤ s.now then
        match operation.run s.rows generation token asOf with
        | (rows, true) =>
            some (if operation.finishes then s.giveUp token rows else s.record token rows)
        | (_, false) => some s
      else none
  | .createAttempt created => some { s with rows := (createAttempt s.rows created).1 }
  | .retry id dispatchId => (retry s.rows id dispatchId).map fun rows => { s with rows := rows }
  | .outbox dispatches => some { s with rows := { s.rows with dispatches := dispatches } }

/-- A new upload before any worker saw it. -/
def rowMachine : Machine RowState RowEvent where
  initial s := s.rows.media.Fresh ∧ (∀ token, s.terms token = none) ∧
    ∀ token, s.released token = false
  step := rowStep

/-- Everything that one statement can do to the rows. -/
inductive RowEffect (s : RowState) : RowEvent → RowState → Prop
  | tick (duration : Time) : RowEffect s (.tick duration) { s with now := s.now + duration }
  | keep (event : RowEvent) : RowEffect s event s
  | claim (generation : Nat) (jobId : String) (leaseSeconds : Nat) (token : LeaseToken)
      (asOf : Time) (past : asOf ≤ s.now) (fresh : s.terms token = none)
      (matched : s.rows.media.claimable generation asOf = true) :
      RowEffect s (.claim generation jobId leaseSeconds token asOf)
        (s.record token
          { s.rows with media := s.rows.media.claimed jobId leaseSeconds token asOf })
  | renew (leaseSeconds generation : Nat) (token : LeaseToken) (asOf : Time)
      (matched : s.rows.media.renewable generation token = true) :
      RowEffect s (.operate (.renew leaseSeconds) generation token asOf)
        (s.record token { s.rows with media := s.rows.media.renewed leaseSeconds asOf })
  | complete (operation : Operation) (generation : Nat) (token : LeaseToken) (asOf : Time)
      (rows : Rows) (metadata : Option Json)
      (matched : s.rows.media.guarded generation token = true)
      (done : rows.media = s.rows.media.completed metadata asOf) :
      RowEffect s (.operate operation generation token asOf) (s.giveUp token rows)
  | fail (operation : Operation) (generation : Nat) (token : LeaseToken) (asOf : Time)
      (rows : Rows) (final : Bool) (errorCode errorMessage : String)
      (matched : s.rows.media.guarded generation token = true)
      (done : rows.media = s.rows.media.failed final errorCode errorMessage) :
      RowEffect s (.operate operation generation token asOf) (s.giveUp token rows)
  | other (event : RowEvent) (rows : Rows) (kept : rows.media = s.rows.media) :
      RowEffect s event { s with rows := rows }
  | retry (id dispatchId : String) (rows : Rows)
      (failed : s.rows.media.processingStatus = .failed)
      (done : rows.media = s.rows.media.retried) :
      RowEffect s (.retry id dispatchId) { s with rows := rows }

section Inversion

variable {s t : RowState} {event : RowEvent}

/-- An operation keeps everything or has one of the listed effects. -/
theorem rowEffect_of_run {operation : Operation} {generation : Nat} {token : LeaseToken}
    {asOf : Time} {rows : Rows}
    (ran : operation.run s.rows generation token asOf = (rows, true)) :
    RowEffect s (.operate operation generation token asOf)
      (if operation.finishes then s.giveUp token rows else s.record token rows) := by
  cases operation with
  | renew leaseSeconds =>
      simp only [Operation.run] at ran
      split at ran <;> cases ran
      exact .renew leaseSeconds generation token asOf ‹_›
  | complete attemptId =>
      simp only [Operation.run] at ran
      split at ran <;> cases ran
      exact .complete _ generation token asOf _ none ‹_› rfl
  | fail attemptId final errorCode errorMessage =>
      simp only [Operation.run] at ran
      split at ran <;> cases ran
      exact .fail _ generation token asOf _ final errorCode errorMessage ‹_› rfl
  | publish attemptId variants metadata =>
      simp only [Operation.run] at ran
      split at ran <;> cases ran
      exact .complete _ generation token asOf _ metadata ‹_› rfl

/-- Every statement has one of the listed effects. -/
theorem rowEffect_of_step (taken : rowStep s event = some t) : RowEffect s event t := by
  cases event with
  | tick duration =>
      cases taken
      exact .tick duration
  | claim generation jobId leaseSeconds token asOf =>
      simp only [rowStep, claim] at taken
      split at taken
      · rename_i allowed
        by_cases matched : s.rows.media.claimable generation asOf = true
        · rw [if_pos matched] at taken
          cases taken
          exact .claim generation jobId leaseSeconds token asOf allowed.1 allowed.2 matched
        · rw [if_neg matched] at taken
          cases taken
          exact .keep _
      · cases taken
  | operate operation generation token asOf =>
      simp only [rowStep] at taken
      split at taken
      · split at taken <;> cases taken
        · exact rowEffect_of_run ‹_›
        · exact .keep _
      · cases taken
  | createAttempt created =>
      cases taken
      refine .other _ _ ?_
      unfold createAttempt
      split <;> rfl
  | retry id dispatchId =>
      obtain ⟨rows, retried, rfl⟩ := Option.map_eq_some_iff.mp taken
      obtain ⟨_, failed, rfl⟩ := retry_spec retried
      exact .retry id dispatchId _ failed rfl
  | outbox dispatches =>
      cases taken
      exact .other _ _ rfl

end Inversion

end PostsMedia.Processing
