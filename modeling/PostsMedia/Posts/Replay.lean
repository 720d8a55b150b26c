import PostsMedia.Idempotency.Binding
import PostsMedia.Posts.Sharing

namespace PostsMedia.Posts

open Idempotency

open Sharing (postOf)

variable {η : Type}

/-- The input of one execution, with the result of its validation. -/
structure Request where
  call : PostsCall
  submitted : Nat
  rejected : List FileValidationError

/-- All executions of create-post and add-media under one key. -/
structure Requests where
  ttlHours : Nat
  leaseSeconds : Nat
  fingerprint : CallId → String
  request : CallId → Request
  presentPost : Post → List Media → Json
  presentMedia : Media → Json

/-- The DTO of add-media. It reports the rejected files beside the accepted ones. -/
def addPostMediaResponse (presentMedia : Media → Json) (postId : String) (request : Request)
    (media : List Media) : Json :=
  .obj [("postId", .str postId),
    ("summary", .obj [("submitted", .num request.submitted), ("accepted", .num media.length),
      ("rejected", .num request.rejected.length)]),
    ("accepted", .arr (media.map presentMedia)),
    ("rejected", .arr (request.rejected.map (·.toJson)))]

/-- The rejection of a request on the tables that it reads, in the order of the checks. -/
def Request.rejection (request : Request) (tables : Tables) : Option DomainError :=
  match request.call with
  | .createPost _ _ =>
      if request.rejected.isEmpty then none
      else some (validationFailedError request.rejected request.submitted)
  | .addPostMedia postId promoted =>
      match postOf tables postId with
      | none => some postNotFound
      | some post =>
          if post.deletedAt.isSome then some postSoftDeleted
          else if promoted.isEmpty then
            some (noFilesAcceptedError request.rejected request.submitted)
          else none

namespace Requests

variable (requests : Requests)

/-- The domain transaction of one execution. -/
def action (r : CallId) : Tables → Option ((Tables → Tables) × IdempotentOutcome) :=
  match (requests.request r).call with
  | .createPost post promoted => createPostTransaction requests.presentPost post promoted
  | .addPostMedia postId promoted =>
      addPostMediaTransaction
        (addPostMediaResponse requests.presentMedia postId (requests.request r)) postId promoted

/-- The executions beside everybody else who writes the tables. -/
def setting (environment : η → Tables → Option Tables) : Setting Tables η where
  ttlHours := requests.ttlHours
  leaseSeconds := requests.leaseSeconds
  service r := (requests.request r).call.service
  fingerprint := requests.fingerprint
  action := requests.action
  environment := environment

/-- The services reject a request only with their own errors. -/
def Rejects (s : State Tables) : Event η → Prop
  | .reject r error => (requests.request r).rejection s.domain = some error
  | _ => True

end Requests

/-- What `execute` gives its caller. A replayed body is returned like a new one. -/
def answer : Result → Option (Except DomainError Json)
  | .returned outcome _ => some (.ok outcome.responseBody)
  | .threw error => some (.error error)
  | .failed => none

/-- The call whose `finalize` or `markRetryableFailure` writes the row in this event. -/
def writer (s : State Tables) : Event η → Option CallId
  | .finalizeRejection r fate | .finalize r fate | .markRetryableFailure r fate =>
      if fate.tookEffect then some r else none
  | .commit r fate => if fate.tookEffect = true ∧ s.lock = some r then some r else none
  | _ => none

/-- Each `finalize` and each `markRetryableFailure` that writes the row finds it not finalized and
with the fingerprint of its own call. -/
def Undisturbed (requests : Requests) (s : State Tables) (event : Event η) : Prop :=
  ∀ r ∈ writer s event, ∀ row ∈ s.row,
    row.state ≠ .finalized ∧ row.requestFingerprint = some (requests.fingerprint r)

instance (requests : Requests) (s : State Tables) (event : Event η) :
    Decidable (Undisturbed requests s event) :=
  inferInstanceAs (Decidable (∀ r ∈ _, ∀ row ∈ _, _ ∧ _))

/-- The steps of the services under a condition. -/
def Services (requests : Requests) (guard : State Tables → Event η → Prop) (s : State Tables)
    (event : Event η) : Prop := requests.Rejects s event ∧ guard s event

/-- The call stores this answer in the row of its key. -/
def Stores (s : State Tables) (r : CallId) (given : Except DomainError Json) : Event η → Prop
  | .finalizeRejection q fate => q = r ∧ fate.tookEffect = true ∧ s.row.isSome = true ∧
      ∃ error, (s.calls r).phase = .rejecting error ∧ given = .error error
  | .commit q fate => q = r ∧ fate.tookEffect = true ∧ s.lock = some r ∧
      ∃ write outcome finalizedAt, (s.calls r).phase = .committing write outcome finalizedAt ∧
        given = .ok outcome.responseBody
  | _ => False

/-- The storage and the domain tables are written only by a call that was granted its key. -/
def working : Phase Tables → Bool
  | .acquired | .rejecting _ | .committing .. | .finalizing _ | .marking => true
  | _ => false

/-- A later execution gives the stored answer, unless its database fails or it crashes, and writes
nothing on its way. -/
structure Replays (setting : Setting Tables η) (u : State Tables) (q : CallId)
    (given : Except DomainError Json) : Prop where
  idle : working (u.calls q).phase = false
  same : ∀ result, (u.calls q).phase = .settled result →
    answer result = some given ∨ result = .failed
  writeless : ∀ event v, event.caller = some q → step setting u event = some v →
    v.domain = u.domain ∧ v.committed = u.committed
  ends : (u.calls q).phase = .crashed ∨ (∃ result, (u.calls q).phase = .settled result) ∨
    ∃ v result, (machine setting).Path Machine.anything u v ∧
      (v.calls q).phase = .settled result ∧ answer result = some given

/-- Every later execution with the fingerprint of the one that finalized the key replays it until
the row is deleted. -/
def ReplayFidelity (requests : Requests) (environment : η → Tables → Option Tables)
    (guard : State Tables → Event η → Prop) : Prop :=
  ∀ s event t u r q given,
    (machine (requests.setting environment)).Reachable (Services requests guard) s →
    Services requests guard s event → Stores s r given event →
    step (requests.setting environment) s event = some t →
    (machine (requests.setting environment)).Path
      (fun s event => Services requests guard s event ∧ KeepsRow s event) t u →
    (t.calls q).phase.unread = true → requests.fingerprint q = requests.fingerprint r →
    (∀ result, (t.calls r).phase = .settled result →
      answer result = some given ∨ result = .failed) ∧
      Replays (requests.setting environment) u q given

section Answers

variable {requests : Requests} {tables : Tables} {r q : CallId}

/-- Every rejection of the services has a known code and an error status. -/
theorem rejection_known {request : Request} {error : DomainError}
    (rejected : request.rejection tables = some error) :
    error.code ∈ errorCodes ∧ 400 ≤ error.httpStatus := by
  have kinds : error = postNotFound ∨ error = postSoftDeleted ∨
      error = validationFailedError request.rejected request.submitted ∨
      error = noFilesAcceptedError request.rejected request.submitted := by
    unfold Request.rejection at rejected
    repeat' split at rejected
    all_goals simp_all
  rcases kinds with rfl | rfl | rfl | rfl
  all_goals
    constructor
    · simp [errorCodes, postNotFound, postSoftDeleted, validationFailedError, noFilesAcceptedError]
    · simp [postNotFound, postSoftDeleted, validationFailedError, noFilesAcceptedError]

/-- A stored rejection is thrown again as it was. -/
theorem answer_of_rejection {request : Request} {error : DomainError} {service : Service}
    (joins : service.joins = true) (rejected : request.rejection tables = some error) (row : Row)
    (now : Time) :
    answer (replayResult service (row.finalize (domainErrorToOutcome error) now).replayed) =
      some (.error error) := by
  obtain ⟨known, status⟩ := rejection_known rejected
  have failed : service.joins = true ∧ 400 ≤ (domainErrorToOutcome error).responseStatus :=
    ⟨joins, status⟩
  have stored : (row.finalize (domainErrorToOutcome error) now).replayed =
      domainErrorToOutcome error := IdempotencyRequest.replayed_finalize ..
  rw [stored, replayResult, if_pos failed, answer,
    outcomeToDomainError_domainErrorToOutcome error known]

/-- A committed transaction answers with the status of a new resource. -/
theorem created_of_action {write : Tables → Tables} {outcome : IdempotentOutcome}
    (acted : requests.action r tables = some (write, outcome)) : outcome.responseStatus = 201 := by
  cases own : (requests.request r).call with
  | createPost post promoted =>
      simp only [Requests.action, own, createPostTransaction, Option.some.injEq,
        Prod.mk.injEq] at acted
      rw [← acted.2]
  | addPostMedia postId promoted =>
      simp only [Requests.action, own, addPostMediaTransaction] at acted
      split at acted
      · simp only [Option.some.injEq, Prod.mk.injEq] at acted
        rw [← acted.2]
      · cases acted

/-- A stored response is returned again as it was. -/
theorem answer_of_commit {write : Tables → Tables} {outcome : IdempotentOutcome} {service : Service}
    (acted : requests.action r tables = some (write, outcome)) (row : Row) (now : Time) :
    answer (replayResult service (row.finalize outcome now).replayed) =
      some (.ok outcome.responseBody) := by
  have created := created_of_action acted
  have returned : ¬ (service.joins = true ∧
      400 ≤ (row.finalize outcome now).replayed.responseStatus) := by
    rintro ⟨_, failed⟩
    rw [IdempotencyRequest.replayed_finalize] at failed
    simp [created] at failed
  rw [replayResult, if_neg returned]
  rfl

end Answers

section Runs

variable {requests : Requests} {environment : η → Tables → Option Tables}
variable {guard : State Tables → Event η → Prop} {s t u : State Tables} {event : Event η}
variable {r q : CallId} {given : Except DomainError Json} {row : Row}

/-- A call finalizes the row with an outcome that stands for its answer. -/
theorem row_of_stores
    (reached : (machine (requests.setting environment)).Reachable (Services requests guard) s)
    (stores : Stores s r given event)
    (taken : step (requests.setting environment) s event = some t) :
    ∃ row outcome now, s.row = some row ∧ t.row = some (row.finalize outcome now) ∧
      writer s event = some r ∧ ∀ service : Service, service.joins = true →
        answer (replayResult service (row.finalize outcome now).replayed) = some given := by
  cases event with
  | finalizeRejection p fate =>
      obtain ⟨rfl, effective, held, error, rejecting, rfl⟩ := stores
      obtain ⟨row, present⟩ := Option.isSome_iff_exists.mp held
      obtain ⟨u, earlier, _, ⟨rejects, _⟩, arrives, _⟩ := arrival reached (by simp) rejecting
      cases arrives
      refine ⟨row, domainErrorToOutcome error, s.now, present, ?_, by simp [writer, effective],
        fun service joins => answer_of_rejection joins rejects row s.now⟩
      simp only [step, stepFinalizeRejection, rejecting] at taken
      split at taken
      · rename_i same _
        cases same
        cases fate <;> cases taken
        · simp [present]
        · cases effective
        · simp [present]
      · cases taken
  | commit p fate =>
      obtain ⟨rfl, effective, owner, write, outcome, finalizedAt, committing, rfl⟩ := stores
      obtain ⟨row, present⟩ :=
        Option.isSome_iff_exists.mp ((sound_of_reachable reached).locked _ owner).2
      obtain ⟨u, earlier, _, _, acted, _⟩ := arrival reached (by simp) committing
      refine ⟨row, outcome, finalizedAt, present, ?_, by simp [writer, effective, owner],
        fun service _ => answer_of_commit acted row finalizedAt⟩
      simp only [step, stepCommit, committing, owner, if_true] at taken
      cases fate with
      | refused => cases effective
      | ok | unacknowledged =>
          cases taken
          simp [present]
  | _ => exact stores.elim

/-- The call gives the answer that it stores, unless its database fails. -/
theorem answer_of_stores (stores : Stores s r given event)
    (taken : step (requests.setting environment) s event = some t) {result : Result}
    (settled : (t.calls r).phase = .settled result) :
    answer result = some given ∨ result = .failed := by
  cases event with
  | finalizeRejection p fate =>
      obtain ⟨rfl, effective, _, error, rejecting, rfl⟩ := stores
      simp only [step, stepFinalizeRejection, rejecting] at taken
      split at taken
      · rename_i same _
        cases same
        cases fate <;> cases taken
        · simp only [State.move_phase, if_true, Phase.settled.injEq] at settled
          rw [← settled]
          exact .inl rfl
        · cases effective
        · simp only [State.move_phase, if_true, Phase.settled.injEq] at settled
          exact .inr settled.symm
      · cases taken
  | commit p fate =>
      obtain ⟨rfl, effective, owner, write, outcome, finalizedAt, committing, rfl⟩ := stores
      simp only [step, stepCommit, committing] at taken
      cases fate <;> cases taken
      · simp only [State.move_phase, if_true, Phase.settled.injEq] at settled
        rw [← settled]
        exact .inl rfl
      · cases effective
      · simp at settled
  | _ => exact stores.elim

/-- The conditional update of a reclaim finds no finalized row. -/
theorem unmatched_of_finalized (finalized : row.state = .finalized) (fingerprint : String)
    (asOf : Time) : (some row).filter (·.reclaims fingerprint asOf) = none := by
  simp [row.not_reclaims_of_finalized fingerprint asOf finalized]

/-- An undisturbed finalized row stays as it is until it is deleted. -/
theorem frozen_step (undisturbed : Undisturbed requests s event) (keeps : KeepsRow s event)
    (present : s.row = some row) (finalized : row.state = .finalized)
    (taken : step (requests.setting environment) s event = some t) : t.row = some row := by
  have unwritten (q : CallId) : writer s event ≠ some q := by
    intro written
    exact (undisturbed q written row present).1 finalized
  cases event with
  | removeExpired now =>
      simp only [step, stepRemoveExpired] at taken
      have later : now < row.expiresAt := keeps row present
      have kept : s.row.filter (·.expiresAt ≤ now) = none := by
        simp [present, later]
      rw [kept] at taken
      split at taken <;> cases taken
      exact present
  | reclaim q fate =>
      simp only [step, stepReclaim, present] at taken
      split at taken
      · cases taken
        exact present
      · rw [unmatched_of_finalized finalized] at taken
        cases taken
        exact present
      · cases taken
  | create q fate =>
      simp only [step, stepCreate, present] at taken
      repeat' split at taken
      all_goals simp_all
      all_goals
        rw [← taken]
        exact present
  | finalizeRejection q fate =>
      cases fate with
      | refused =>
          simp only [step, stepFinalizeRejection] at taken
          split at taken <;> cases taken
          exact present
      | _ => exact absurd rfl (unwritten q)
  | finalize q fate =>
      cases fate with
      | refused =>
          simp only [step, stepFinalize] at taken
          split at taken <;> cases taken
          exact present
      | _ => exact absurd rfl (unwritten q)
  | markRetryableFailure q fate =>
      cases fate with
      | refused =>
          simp only [step, stepMarkRetryableFailure, Fate.tookEffect] at taken
          split at taken <;> cases taken
          exact present
      | _ => exact absurd rfl (unwritten q)
  | commit q fate =>
      simp only [step, stepCommit] at taken
      split at taken
      · by_cases owner : s.lock = some q
        · cases fate with
          | refused =>
              cases taken
              exact present
          | _ => exact absurd (by simp [writer, Fate.tookEffect, owner]) (unwritten q)
        · simp only [if_neg owner] at taken
          cases fate <;> cases taken
          all_goals exact present
      · cases taken
  | environment event =>
      obtain ⟨domain, _, rfl⟩ := Option.map_eq_some_iff.mp taken
      exact present
  | tick | acquire | find | decide | reject | abandon | fail | finalizeInTransaction | act
  | crash =>
      simp only [step, stepAcquire, stepFind, stepDecide, stepReject, stepAbandon, stepFail,
        stepFinalizeInTransaction, stepAct, stepCrash] at taken
      repeat' split at taken
      all_goals cases taken
      all_goals exact present

/-- A later execution stays on its way to the replay. -/
theorem replaying_of_path (present : t.row = some row) (finalized : row.state = .finalized)
    (same : row.requestFingerprint = some (requests.fingerprint q))
    (unread : (t.calls q).phase.unread = true)
    (path : (machine (requests.setting environment)).Path
      (fun s event => Services requests (Undisturbed requests) s event ∧ KeepsRow s event) t u) :
    u.row = some row ∧ Replaying (requests.request q).call.service (requests.fingerprint q)
      row.replayed (u.calls q).phase := by
  induction path with
  | refl => exact ⟨present, .unread _ unread⟩
  | snoc event _ admitted taken before =>
      obtain ⟨kept, replaying⟩ := before
      obtain ⟨⟨_, undisturbed⟩, keeps⟩ := admitted
      constructor
      · exact frozen_step undisturbed keeps kept finalized taken
      · exact replaying.step kept finalized same rfl taken

/-- A call on its way to the replay writes nothing. -/
theorem writeless_of_replaying {service : Service} {fingerprint : String}
    {outcome : IdempotentOutcome}
    (replaying : Replaying service fingerprint outcome (s.calls q).phase)
    (mine : event.caller = some q)
    (taken : step (requests.setting environment) s event = some t) :
    t.domain = s.domain ∧ t.committed = s.committed := by
  cases effect_of_step taken with
  | tick | spare | remove | advance | create | reclaim | finalizeAlone | lock | rollback | mark =>
      exact ⟨rfl, rfl⟩
  | environment => cases mine
  | commit p fate write outcome finalizedAt phase started after next =>
      cases mine
      rw [started] at replaying
      cases replaying with
      | unread phase before => cases before
  | act p fate write outcome phase started wrapped acted after next =>
      cases mine
      rw [started] at replaying
      cases replaying with
      | unread phase before => cases before

/-- Some run from here on settles the call with this result. -/
def Ends (setting : Setting Tables η) (u : State Tables) (q : CallId) (result : Result) : Prop :=
  ∃ v, (machine setting).Path Machine.anything u v ∧ (v.calls q).phase = .settled result

theorem Ends.before {setting : Setting Tables η} {result : Result}
    (taken : step setting s event = some t) (ends : Ends setting t q result) :
    Ends setting s q result := by
  obtain ⟨v, path, settled⟩ := ends
  exact ⟨v, (Machine.Path.single event trivial taken).trans path, settled⟩

/-- The decision on a finalized row replays it. -/
theorem ends_of_deciding {expiry : Time} (finalized : row.state = .finalized)
    (same : row.requestFingerprint = some (requests.fingerprint q))
    (deciding : (u.calls q).phase = .deciding expiry row) :
    Ends (requests.setting environment) u q
      (replayResult (requests.request q).call.service row.replayed) := by
  refine ⟨u.move q (.settled (replayResult (requests.request q).call.service row.replayed)),
    .single (.decide q) trivial ?_, by simp⟩
  show stepDecide (requests.setting environment) u q = _
  rw [stepDecide, deciding]
  simp only [Requests.setting, reconcileExisting_finalized row _ u.now finalized same]

/-- A call that has not read the finalized row yet comes to its replay by itself. -/
theorem ends_of_unread (present : u.row = some row) (finalized : row.state = .finalized)
    (same : row.requestFingerprint = some (requests.fingerprint q))
    (unread : (u.calls q).phase.unread = true) :
    Ends (requests.setting environment) u q
      (replayResult (requests.request q).call.service row.replayed) := by
  have finds (v : State Tables) (expiry : Time) (held : v.row = some row)
      (finding : (v.calls q).phase = .finding expiry) :
      Ends (requests.setting environment) v q
        (replayResult (requests.request q).call.service row.replayed) := by
    have found : step (requests.setting environment) v (.find q .ok) =
        some (v.move q (.deciding expiry row)) := by
      show stepFind v q .ok = _
      rw [stepFind, finding, held]
    have decides : ((v.move q (.deciding expiry row)).calls q).phase = .deciding expiry row := by
      simp
    exact .before found (ends_of_deciding finalized same decides)
  have creates (v : State Tables) (now : Time) (held : v.row = some row)
      (creating : (v.calls q).phase = .creating now) :
      Ends (requests.setting environment) v q
        (replayResult (requests.request q).call.service row.replayed) := by
    have violated : step (requests.setting environment) v (.create q .ok) =
        some (v.move q (.finding (now + requests.leaseSeconds * 1000))) := by
      show stepCreate (requests.setting environment) v q .ok = _
      rw [stepCreate, creating, held]
      rfl
    exact .before violated (finds _ (now + requests.leaseSeconds * 1000) held (by simp))
  cases phase : (u.calls q).phase with
  | idle =>
      have acquired : step (requests.setting environment) u (.acquire q) =
          some (u.move q (.creating u.now)) := by
        show stepAcquire u q = _
        rw [stepAcquire, phase]
      exact .before acquired (creates _ u.now present (by simp))
  | creating now => exact creates u now present phase
  | finding expiry => exact finds u expiry present phase
  | _ =>
      rw [phase] at unread
      cases unread

/-- A call on its way to the replay of a stored answer gives this answer and writes nothing. -/
theorem replays_of_replaying (present : u.row = some row) (finalized : row.state = .finalized)
    (same : row.requestFingerprint = some (requests.fingerprint q))
    (stored : answer (replayResult (requests.request q).call.service row.replayed) = some given)
    (replaying : Replaying (requests.request q).call.service (requests.fingerprint q) row.replayed
      (u.calls q).phase) : Replays (requests.setting environment) u q given where
  idle := by
    cases phase : (u.calls q).phase with
    | acquired | rejecting | committing | finalizing | marking =>
        rw [phase] at replaying
        cases replaying with
        | unread phase before => cases before
    | _ => rfl
  same result settled := by
    rw [settled] at replaying
    cases replaying with
    | unread phase before => cases before
    | replayed => exact .inl stored
    | failed => exact .inr rfl
  writeless event v mine taken := writeless_of_replaying replaying mine taken
  ends := by
    generalize before : (u.calls q).phase = phase at replaying
    cases replaying with
    | unread phase unread =>
        have ends : Ends (requests.setting environment) u q
            (replayResult (requests.request q).call.service row.replayed) :=
          ends_of_unread present finalized same (before ▸ unread)
        obtain ⟨v, path, settled⟩ := ends
        exact .inr (.inr ⟨v, _, path, settled, stored⟩)
    | deciding expiry existing settled matched kept =>
        have ends : Ends (requests.setting environment) u q
            (replayResult (requests.request q).call.service existing.replayed) :=
          ends_of_deciding settled matched before
        obtain ⟨v, path, settled⟩ := ends
        exact .inr (.inr ⟨v, _, path, settled, by rw [kept, stored]⟩)
    | replayed => exact .inr (.inl ⟨_, rfl⟩)
    | failed => exact .inr (.inl ⟨_, rfl⟩)
    | crashed => exact .inl rfl

end Runs

/-- A stored answer is replayed without any write while nobody else writes the finalized row. -/
theorem replayFidelity_of_undisturbed (requests : Requests)
    (environment : η → Tables → Option Tables) :
    ReplayFidelity requests environment (Undisturbed requests) := by
  intro s event t u r q given reached admitted stores taken path unread equal
  obtain ⟨row, outcome, now, present, written, writes, answers⟩ :=
    row_of_stores reached stores taken
  have own : row.requestFingerprint = some (requests.fingerprint q) := by
    rw [equal]
    exact (admitted.2 r writes row present).2
  have joins (p : CallId) : (requests.request p).call.service.joins = true :=
    (requests.request p).call.service_joins
  obtain ⟨kept, replaying⟩ := replaying_of_path written rfl own unread path
  constructor
  · exact fun result settled => answer_of_stores stores taken settled
  · exact replays_of_replaying kept rfl own (answers _ (joins q)) replaying

section Quiet

variable {requests : Requests} {environment : η → Tables → Option Tables}
variable {s t u : State Tables} {event : Event η} {row : Row}

/-- Nobody works under the key. -/
def Quiet (s : State Tables) : Prop := ∀ r, working (s.calls r).phase = false

/-- The steps of a call that has not been granted its key. -/
def acquires : Event η → Bool
  | .acquire _ | .create .. | .find .. | .decide _ | .reclaim .. | .crash _ => true
  | _ => false

/-- A call that does not work under the key takes only such steps. -/
theorem acquires_of_idle {r : CallId} (idle : working (s.calls r).phase = false)
    (mine : event.caller = some r)
    (taken : step (requests.setting environment) s event = some t) : acquires event = true := by
  cases event with
  | tick | environment | removeExpired => cases mine
  | acquire | create | find | decide | reclaim | crash => rfl
  | reject q | abandon q | fail q | finalizeRejection q | finalizeInTransaction q | commit q
  | act q | finalize q | markRetryableFailure q =>
      cases mine
      simp only [step, stepReject, stepAbandon, stepFail, stepFinalizeRejection,
        stepFinalizeInTransaction, stepCommit, stepAct, stepFinalize,
        stepMarkRetryableFailure] at taken
      generalize (s.calls r).phase = phase at idle taken
      cases phase <;> simp [working] at idle taken

/-- The writes of the row belong to calls that work under the key. -/
theorem undisturbed_of_quiet (quiet : Quiet s)
    (taken : step (requests.setting environment) s event = some t) :
    Undisturbed requests s event := by
  intro r written
  exfalso
  have other (mine : event.caller = some r) : acquires event = true :=
    acquires_of_idle (quiet r) mine taken
  cases event with
  | finalizeRejection q fate | finalize q fate | markRetryableFailure q fate | commit q fate =>
      simp only [writer, Option.mem_def] at written
      split at written
      · cases other written
      · cases written
  | _ => cases written

/-- A finalized key lets nobody work under it. -/
theorem quiet_step (present : s.row = some row) (finalized : row.state = .finalized)
    (quiet : Quiet s) (taken : step (requests.setting environment) s event = some t) :
    Quiet t := by
  intro r
  by_cases mine : event.caller = some r
  · have early := acquires_of_idle (quiet r) mine taken
    cases event with
    | create q fate =>
        cases mine
        simp only [step, stepCreate, present] at taken
        split at taken
        · split at taken <;> cases taken
          all_goals simp_all [working]
        · cases taken
    | reclaim q fate =>
        cases mine
        simp only [step, stepReclaim, present] at taken
        split at taken
        · cases taken
          simp [working]
        · rw [unmatched_of_finalized finalized] at taken
          cases taken
          simp [working]
        · cases taken
    | acquire q | find q | decide q | crash q =>
        cases mine
        simp only [step, stepAcquire, stepFind, stepDecide, stepCrash] at taken
        repeat' split at taken
        all_goals cases taken
        all_goals simp [working]
    | _ => cases early
  · rw [phase_of_other mine taken]
    exact quiet r

/-- It is enough for the replay that nobody else works under the key when it is finalized. -/
theorem path_of_quiet (present : t.row = some row) (finalized : row.state = .finalized)
    (quiet : Quiet t)
    (path : (machine (requests.setting environment)).Path
      (fun s event => requests.Rejects s event ∧ KeepsRow s event) t u) :
    (machine (requests.setting environment)).Path
      (fun s event => Services requests (Undisturbed requests) s event ∧ KeepsRow s event) t u := by
  have along : Quiet u ∧ u.row = some row ∧ (machine (requests.setting environment)).Path
      (fun s event => Services requests (Undisturbed requests) s event ∧ KeepsRow s event) t u := by
    induction path with
    | refl => exact ⟨quiet, present, .refl _⟩
    | snoc event _ admitted taken before =>
        obtain ⟨idle, held, path⟩ := before
        have undisturbed : Undisturbed requests _ event := undisturbed_of_quiet idle taken
        exact ⟨quiet_step held finalized idle taken,
          frozen_step undisturbed admitted.2 held finalized taken,
          path.snoc event ⟨⟨admitted.1, undisturbed⟩, admitted.2⟩ taken⟩
  exact along.2.2

end Quiet

/-- Title-only create-post requests that share a key. -/
def titleRequests : Requests where
  ttlHours := jsonCalls.ttlHours
  leaseSeconds := jsonCalls.leaseSeconds
  fingerprint := jsonCalls.fingerprint
  request r := ⟨jsonCalls.call r, 0, []⟩
  presentPost := jsonCalls.presentPost
  presentMedia _ := .null

/-- The requests beside others who may write anything. -/
def titleSetting : Setting Tables Tables := titleRequests.setting fun tables _ => some tables

theorem titleSetting_initial : (machine titleSetting).initial jsonStart :=
  ⟨0, ⟨[], [], []⟩, rfl⟩

/-- The post id of a response. -/
def respondedId (body : Json) : Option String :=
  match body.field "id" with
  | some (.str id) => some id
  | _ => none

/-- The post id that an open transaction is going to respond. -/
def openId (phase : Phase Tables) : Option String :=
  match phase with
  | .committing _ outcome _ => respondedId outcome.responseBody
  | _ => none

/-- The post id that a call has responded. -/
def settledId (phase : Phase Tables) : Option String :=
  match phase with
  | .settled (.returned outcome _) => respondedId outcome.responseBody
  | _ => none

/-- The event rejects no request. -/
def accepts : Event Tables → Bool
  | .reject .. => false
  | _ => true

theorem rejects_of_accepts {requests : Requests} {s : State Tables} {event : Event Tables}
    (accepted : accepts event = true) : requests.Rejects s event := by
  cases event with
  | reject => cases accepted
  | _ => trivial

theorem stores_of_open {s : State Tables} {r : CallId} {id : String}
    (owner : s.lock = some r) (responds : openId (s.calls r).phase = some id) :
    ∃ body, respondedId body = some id ∧
      Stores s r (.ok body) (.commit r .ok : Event Tables) := by
  cases phase : (s.calls r).phase with
  | committing write outcome finalizedAt =>
      rw [phase] at responds
      exact ⟨outcome.responseBody, responds, rfl, rfl, owner, write, outcome, finalizedAt, phase,
        rfl⟩
  | _ =>
      rw [phase] at responds
      cases responds

/-- The second client gets the response of the first one although the post is gone. -/
theorem titleRequests_replay : ∃ s t u : State Tables, ∃ body,
    step titleSetting s (.commit 0 .ok) = some t ∧
      Stores s 0 (.ok body) (.commit 0 .ok : Event Tables) ∧
      respondedId body = some "post-0" ∧ u.domain.posts.length = 0 ∧
      settledId (u.calls 1).phase = some "post-0" ∧ Replays titleSetting u 1 (.ok body) := by
  obtain ⟨s, ⟨origin, initial, before⟩, observed⟩ :=
    (machine titleSetting).reachable_of_observed
      (fun s event => accepts event = true ∧ Undisturbed titleRequests s event ∧ KeepsRow s event)
      (fun s : State Tables => (decide (s.lock = some 0 ∧ openId (s.calls 0).phase = some "post-0" ∧
        Undisturbed titleRequests s (.commit 0 .ok : Event Tables)),
        (step titleSetting s (.commit 0 .ok)).map fun t : State Tables =>
          ((t.calls 1).phase.unread, ((machine titleSetting).execute (fun s event =>
            accepts event = true ∧ Undisturbed titleRequests s event ∧ KeepsRow s event) t
              [.environment ⟨[], [], []⟩, .acquire 1, .create 1 .ok, .find 1 .ok, .decide 1]).map
            fun u : State Tables => decide (u.domain.posts.length = 0 ∧
              settledId (u.calls 1).phase = some "post-0"))))
      (true, some (true, some true))
      [.acquire 0, .create 0 .ok, .finalizeInTransaction 0 .ok] titleSetting_initial (by decide)
  simp only [Prod.mk.injEq, Option.map_eq_some_iff, decide_eq_true_eq] at observed
  obtain ⟨⟨owner, responds, undisturbed⟩, t, taken, unread, u, ran, gone, settled⟩ := observed
  obtain ⟨body, responded, stores⟩ := stores_of_open owner responds
  have reached : (machine titleSetting).Reachable
      (Services titleRequests (Undisturbed titleRequests)) s :=
    ⟨origin, initial, before.mono fun _ _ run => ⟨rejects_of_accepts run.1, run.2.1⟩⟩
  have path : (machine titleSetting).Path (fun s event =>
      Services titleRequests (Undisturbed titleRequests) s event ∧ KeepsRow s event) t u :=
    (Machine.path_of_execute _ ran).mono fun _ _ run =>
      ⟨⟨rejects_of_accepts run.1, run.2.1⟩, run.2.2⟩
  obtain ⟨_, replays⟩ := replayFidelity_of_undisturbed titleRequests (fun tables _ => some tables)
    s (.commit 0 .ok) t u 0 1 (.ok body) reached ⟨trivial, undisturbed⟩ stores taken path unread rfl
  exact ⟨s, t, u, body, taken, stores, responded, gone, settled, replays⟩

/-- The superseded second client marks its failure after the commit of the first one, and a third
client with the same request creates another post. -/
theorem titleRequests_not_replayFidelity :
    ¬ ReplayFidelity titleRequests (fun tables _ => some tables)
      (Machine.anything : State Tables → Event Tables → Prop) := by
  intro fidelity
  obtain ⟨s, ⟨origin, initial, before⟩, observed⟩ :=
    (machine titleSetting).reachable_of_observed
      (fun s event => accepts event = true ∧ KeepsRow s event)
      (fun s : State Tables => (decide (s.lock = some 0 ∧ openId (s.calls 0).phase = some "post-0"),
        (step titleSetting s (.commit 0 .ok)).map fun t : State Tables =>
          ((t.calls 2).phase.unread, ((machine titleSetting).execute (fun s event =>
            accepts event = true ∧ KeepsRow s event) t
              [.fail 1, .markRetryableFailure 1 .ok, .acquire 2, .create 2 .ok, .find 2 .ok,
                .decide 2, .reclaim 2 .ok, .finalizeInTransaction 2 .ok, .commit 2 .ok]).map
            fun u : State Tables => decide (u.domain.posts.length = 2 ∧
              settledId (u.calls 2).phase = some "post-1"))))
      (true, some (true, some true))
      [.acquire 0, .create 0 .ok, .tick 900000, .acquire 1, .create 1 .ok, .find 1 .ok, .decide 1,
        .reclaim 1 .ok, .finalizeInTransaction 0 .ok] titleSetting_initial (by decide)
  simp only [Prod.mk.injEq, Option.map_eq_some_iff, decide_eq_true_eq] at observed
  obtain ⟨⟨owner, responds⟩, t, taken, unread, u, ran, _, settled⟩ := observed
  obtain ⟨body, responded, stores⟩ := stores_of_open owner responds
  have reached : (machine titleSetting).Reachable (Services titleRequests Machine.anything) s :=
    ⟨origin, initial, before.mono fun _ _ run => ⟨rejects_of_accepts run.1, trivial⟩⟩
  have path : (machine titleSetting).Path (fun s event =>
      Services titleRequests Machine.anything s event ∧ KeepsRow s event) t u :=
    (Machine.path_of_execute _ ran).mono fun _ _ run =>
      ⟨⟨rejects_of_accepts run.1, trivial⟩, run.2⟩
  obtain ⟨_, replays⟩ := fidelity s (.commit 0 .ok) t u 0 2 (.ok body) reached ⟨trivial, trivial⟩
    stores taken path unread rfl
  cases phase : (u.calls 2).phase with
  | settled result =>
      rw [phase] at settled
      rcases replays.same result phase with same | rfl
      · cases result with
        | returned outcome replayed =>
            simp only [answer, Option.some.injEq, Except.ok.injEq] at same
            simp only [settledId, same, responded] at settled
            exact absurd settled (by decide)
        | _ => cases settled
      · cases settled
  | _ =>
      rw [phase] at settled
      cases settled

end PostsMedia.Posts
