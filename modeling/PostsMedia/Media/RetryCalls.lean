import PostsMedia.Idempotency.Fencing
import PostsMedia.Media.Repository
import PostsMedia.Processing.Claims

namespace PostsMedia.MediaService

open Idempotency

open Processing (Rows Operation retry retryDispatch)

/-- The retry calls of one media that carry the same key. Each client spells the media id. -/
structure RetryCalls where
  ttlHours : Nat
  leaseSeconds : Nat
  id : CallId → String
  fingerprint : CallId → String
  dispatchId : CallId → String
  presentMedia : Media → Json

/-- What the workers ask the database for between the statements of the calls. -/
inductive WorkerEvent
  | claim (generation : Nat) (jobId : String) (leaseSeconds : Nat) (token : LeaseToken)
      (now : Time)
  | createAttempt (created : ProcessingAttempt)
  | operate (operation : Operation) (generation : Nat) (token : LeaseToken) (now : Time)

def WorkerEvent.run (rows : Rows) : WorkerEvent → Rows
  | .claim generation jobId leaseSeconds token now =>
      (Processing.claim rows generation jobId leaseSeconds token now).1
  | .createAttempt created => (Processing.createAttempt rows created).1
  | .operate operation generation token now => (operation.run rows generation token now).1

namespace RetryCalls

variable (calls : RetryCalls)

/-- The action that `retry` hands to `executeIdempotent`. -/
def action (r : CallId) (rows : Rows) : Option ((Rows → Rows) × IdempotentOutcome) :=
  (retry rows (calls.id r) (calls.dispatchId r)).map fun retried =>
    (fun _ => retried,
      { responseStatus := 200
        responseBody := calls.presentMedia retried.media
        targetResourceId := some (calls.id r) })

/-- The retry calls on one key beside the workers. -/
def setting : Setting Rows WorkerEvent where
  ttlHours := calls.ttlHours
  leaseSeconds := calls.leaseSeconds
  service _ := .retryMedia
  fingerprint := calls.fingerprint
  action := calls.action
  environment event rows := some (event.run rows)

end RetryCalls

/-- The manual retries that the outbox knows of. -/
def manualRetries (rows : Rows) : Nat :=
  rows.dispatches.countP (·.reason = .manualRetry)

/-- A worker changes neither the generation nor the outbox. -/
theorem WorkerEvent.run_frame (event : WorkerEvent) (rows : Rows) :
    (event.run rows).media.processingGeneration = rows.media.processingGeneration ∧
      manualRetries (event.run rows) = manualRetries rows := by
  have counts (after : Rows)
      (frame : after.media.processingGeneration = rows.media.processingGeneration ∧
        after.dispatches = rows.dispatches) :
      after.media.processingGeneration = rows.media.processingGeneration ∧
        manualRetries after = manualRetries rows := by
    refine ⟨frame.1, ?_⟩
    unfold manualRetries
    rw [frame.2]
  cases event with
  | claim => exact counts _ (Processing.claim_frame _ _)
  | createAttempt created =>
      obtain ⟨media, dispatches⟩ := Processing.createAttempt_frame rows created
      exact counts _ ⟨congrArg _ media, dispatches⟩
  | operate operation => exact counts _ operation.run_frame

/-- A retry adds one generation and one manual dispatch. -/
theorem retry_counts {rows after : Rows} {id dispatchId : String}
    (retried : retry rows id dispatchId = some after) :
    after.media.processingGeneration = rows.media.processingGeneration + 1 ∧
      manualRetries after = manualRetries rows + 1 := by
  obtain ⟨_, _, rfl⟩ := Processing.retry_spec retried
  refine ⟨rfl, ?_⟩
  simp [manualRetries, retryDispatch, ProcessingDispatch.ofPayload]

variable {s t : State Rows} {event : Event WorkerEvent}

/-- The runs in which the retry transaction and the later writes of its key belong together: a call
acts, finalizes and marks a failure only under its own lease, it does not mark a failure after its
transaction has committed, and nobody reclaims the key of a call that has committed. -/
def RetryFenced (s : State Rows) (event : Event WorkerEvent) : Prop :=
  FencedKeeping s event ∧
    match event with
    | .act r _ => s.holds r
    | .markRetryableFailure r _ => r ∉ s.committed
    | .reclaim _ _ => ∀ q ∈ s.committed, ¬ s.holds q
    | _ => True

instance (s : State Rows) (event : Event WorkerEvent) : Decidable (RetryFenced s event) := by
  rcases event <;> unfold RetryFenced <;> infer_instance

/-- The first commit stays the only one under its own lease or behind a finalized row. -/
def Retried (s : State Rows) : Prop :=
  s.committed = [] ∨
    ∃ r, s.committed = [r] ∧
      (s.holds r ∨ ∃ row, s.row = some row ∧ row.state = .finalized)

/-- The domain tables count every committed retry. -/
structure Counted (origin : Rows) (s : State Rows) : Prop where
  generation : s.domain.media.processingGeneration =
    origin.media.processingGeneration + s.committed.length
  dispatches : manualRetries s.domain = manualRetries origin + s.committed.length

section Steps

variable {calls : RetryCalls} {origin : Rows}

/-- Every effect of a fenced run keeps the first commit the only one. -/
theorem Retried.effect (sound : Sound s) (calm : Calm s)
    (fenced : RetryFenced s event) (effect : Effect calls.setting s event t)
    (retried : Retried s) : Retried t := by
  obtain ⟨⟨⟨finalizes, marks⟩, keeps⟩, own⟩ := fenced
  cases effect with
  | tick | environment | spare | advance | rollback => exact retried
  | remove now row present expired past unlocked =>
      have kept : now < row.expiresAt := keeps row present
      exact absurd expired (Nat.not_le_of_lt kept)
  | lock r write outcome started unlocked joins acted => cases joins
  | commit r fate write outcome finalizedAt phase started after next =>
      have outside := calm r
      rw [started] at outside
      cases outside
  | create r fate now phase started absent next =>
      rcases retried with nothing | ⟨q, single, held | ⟨row, present, _⟩⟩
      · exact .inl nothing
      · simp [State.holds, absent] at held
      · simp [present] at absent
  | reclaim r fate expiry asOf row phase started unlocked present matched next =>
      rcases retried with nothing | ⟨q, single, held | ⟨other, found, finalized⟩⟩
      · exact .inl nothing
      · exact absurd held (own q (by simp [single]))
      · rw [present] at found
        cases found
        simp [row.not_reclaims_of_finalized _ _ finalized] at matched
  | finalizeAlone event r outcome phase writer unlocked before calm' after next =>
      obtain ⟨row, present, _, _⟩ := sound.holds_inProgress (finalizes r writer)
      rcases retried with nothing | ⟨q, single, _⟩
      · exact .inl nothing
      · exact .inr ⟨q, single, .inr ⟨row.finalize outcome s.now, by simp [present], rfl⟩⟩
  | act r fate write outcome phase started wrapped acted after next =>
      have held : s.holds r := own
      rcases retried with nothing | ⟨q, single, other | ⟨row, present, finalized⟩⟩
      · exact .inr ⟨r, by simp [nothing], .inl held⟩
      · have same : r = q := by
          rw [State.holds] at held other
          rw [held] at other
          exact Option.some.inj other
        have late := sound.acted q (by simp [single])
        rw [← same, started] at late
        cases late
      · exact absurd held (sound.finalized_unheld present finalized r)
  | mark event r writer unlocked started =>
      have held := marks r writer
      rcases retried with nothing | ⟨q, single, other | ⟨row, present, finalized⟩⟩
      · exact .inl nothing
      · have same : r = q := by
          rw [State.holds] at held other
          rw [held] at other
          exact Option.some.inj other
        cases event with
        | markRetryableFailure r' fate =>
            simp only [Event.marks] at writer
            split at writer <;> cases writer
            exact absurd (by simp [single, same]) own
        | _ => cases writer
      · exact absurd held (sound.finalized_unheld present finalized r)

/-- Every effect keeps the count of the committed retries. -/
theorem Counted.effect (calm : Calm s)
    (effect : Effect calls.setting s event t) (counted : Counted origin s) : Counted origin t := by
  obtain ⟨generation, dispatches⟩ := counted
  cases effect with
  | tick | spare | advance | rollback | remove | create | reclaim | finalizeAlone | mark =>
      exact ⟨generation, dispatches⟩
  | environment event domain stepped =>
      obtain rfl : event.run s.domain = domain := Option.some.inj stepped
      obtain ⟨sameGeneration, sameDispatches⟩ := event.run_frame s.domain
      exact ⟨sameGeneration.trans generation, sameDispatches.trans dispatches⟩
  | lock r write outcome started unlocked joins acted => cases joins
  | commit r fate write outcome finalizedAt phase started after next =>
      have outside := calm r
      rw [started] at outside
      cases outside
  | act r fate write outcome phase started wrapped acted after next =>
      obtain ⟨rows, retried, same⟩ := Option.map_eq_some_iff.mp acted
      simp only [Prod.mk.injEq] at same
      obtain ⟨rfl, _⟩ := same
      obtain ⟨moreGenerations, moreDispatches⟩ := retry_counts retried
      constructor
      · simp only [State.move_domain, State.apply_domain, State.move_committed,
          State.apply_committed, List.length_cons, moreGenerations, generation]
        omega
      · simp only [State.move_domain, State.apply_domain, State.move_committed,
          State.apply_committed, List.length_cons, moreDispatches, dispatches]
        omega

end Steps

/-- In the admitted runs the calls together retry the media at most once. -/
def OneRetry (calls : RetryCalls) (guard : State Rows → Event WorkerEvent → Prop) : Prop :=
  ∀ now origin s, (machine calls.setting).Path guard (State.fresh now origin) s →
    s.domain.media.processingGeneration ≤ origin.media.processingGeneration + 1 ∧
      manualRetries s.domain ≤ manualRetries origin + 1

/-- The retry calls on one key retry their media at most once when the retry transaction and the
later writes of the key belong together. -/
theorem retryCalls_oneRetry (calls : RetryCalls) : OneRetry calls RetryFenced := by
  intro now origin s path
  have start : (machine calls.setting).initial (State.fresh now origin) := ⟨now, origin, rfl⟩
  have invariant : Retried s ∧ Counted origin s := by
    induction path with
    | refl => exact ⟨.inl rfl, rfl, rfl⟩
    | snoc event before admitted taken kept =>
        have reached : (machine calls.setting).Reachable RetryFenced _ := ⟨_, start, before⟩
        have calm := calm_of_reachable (fun _ => rfl) reached
        have effect := effect_of_step taken
        exact ⟨kept.1.effect (sound_of_reachable reached) calm admitted effect,
          kept.2.effect calm effect⟩
  obtain ⟨retried, generation, dispatches⟩ := invariant
  have few : s.committed.length ≤ 1 := by
    rcases retried with nothing | ⟨r, single, _⟩
    · simp [nothing]
    · simp [single]
  omega

/-- The retry calls of one client on a failed image. -/
def imageRetries : RetryCalls where
  ttlHours := 24
  leaseSeconds := 900
  id _ := "media-0"
  fingerprint _ := "fingerprint"
  dispatchId r := if r = 0 then "dispatch-1" else "dispatch-2"
  presentMedia media := .obj [("id", .str media.id)]

/-- The image failed for good in its first generation. -/
def failedRows : Rows where
  media := (createWithDispatch sampleInput).1.failed true "PROCESSING_FAILED" "Processing failed"
  variants := []
  attempts := []
  dispatches := [(createWithDispatch sampleInput).2]

def retryStart : State Rows := State.fresh 0 failedRows

/-- The first call retries the media and finalizes its key. -/
theorem imageRetries_retries : ∃ s : State Rows,
    (machine imageRetries.setting).Path RetryFenced retryStart s ∧
      s.domain.media.processingGeneration = 2 ∧ manualRetries s.domain = 1 ∧
      s.domain.media.processingGeneration ≤ 2 ∧ manualRetries s.domain ≤ 1 := by
  have ran : ((machine imageRetries.setting).execute RetryFenced retryStart
      [.acquire 0, .create 0 .ok, .act 0 .ok, .finalize 0 .ok]).map
        (fun s => (s.domain.media.processingGeneration, manualRetries s.domain)) = some (2, 1) := by
    decide
  obtain ⟨s, executed, observed⟩ := Option.map_eq_some_iff.mp ran
  simp only [Prod.mk.injEq] at observed
  have path := Machine.path_of_execute _ executed
  exact ⟨s, path, observed.1, observed.2, retryCalls_oneRetry imageRetries 0 failedRows s path⟩

/-- The first call commits its retry and crashes. The worker fails the media again, and a repetition
of the request reclaims the key after its lease. -/
def repeatedRetry : List (Event WorkerEvent) :=
  [.acquire 0, .create 0 .ok, .act 0 .ok, .crash 0,
    .environment (.claim 2 "media-media-0-generation-2" 60 0 0),
    .environment (.operate (.fail "attempt-0" true "PROCESSING_FAILED" "Processing failed") 2 0 0),
    .tick 900000, .acquire 1, .create 1 .ok, .find 1 .ok, .decide 1, .reclaim 1 .ok, .act 1 .ok]

/-- One key retries the media twice although the cleanup kept its row. -/
theorem imageRetries_not_oneRetry : ¬ OneRetry imageRetries KeepsRow := by
  intro one
  have ran : ((machine imageRetries.setting).execute KeepsRow retryStart repeatedRetry).map
      (fun s => (s.domain.media.processingGeneration, manualRetries s.domain)) = some (3, 2) := by
    decide
  obtain ⟨s, executed, observed⟩ := Option.map_eq_some_iff.mp ran
  simp only [Prod.mk.injEq] at observed
  have bound := (one 0 failedRows s (Machine.path_of_execute _ executed)).1
  rw [observed.1] at bound
  exact absurd bound (by decide)

end PostsMedia.MediaService
