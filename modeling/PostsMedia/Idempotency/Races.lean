import PostsMedia.Idempotency.Exclusion
import PostsMedia.Idempotency.Permanence

namespace PostsMedia.Idempotency

variable {δ η : Type} {setting : Setting δ η} {s t u : State δ} {event : Event η}

/-- The lease that a call computed at its start and has not written yet. -/
def Phase.claimedLease (setting : Setting δ η) : Phase δ → Option Time
  | .creating now => some (now + setting.leaseSeconds * 1000)
  | .finding leaseExpiresAt => some leaseExpiresAt
  | .deciding leaseExpiresAt _ => some leaseExpiresAt
  | .reclaiming leaseExpiresAt _ => some leaseExpiresAt
  | _ => none

/-- The time with which the call's conditional update compares a lease. -/
def Phase.asOf : Phase δ → Option Time
  | .reclaiming _ asOf => some asOf
  | _ => none

/-- The lapsed row that the call has read and not judged yet. -/
def Phase.lapsed (now : Time) : Phase δ → Option Row
  | .deciding _ existing => if existing.reclaimable now = true then some existing else none
  | _ => none

/-- The call has read a lapsed row and has not made its conditional update yet. -/
def Phase.contends (now : Time) (phase : Phase δ) : Bool :=
  (phase.lapsed now).isSome || phase.asOf.isSome

/-- The lease that the call asks for ends after every other call that waits with its update read
the clock. -/
def Outlives (setting : Setting δ η) (s : State δ) (r : CallId) : Prop :=
  ∀ expiry ∈ (s.calls r).phase.claimedLease setting, ∀ q, q ≠ r →
    ∀ asOf ∈ (s.calls q).phase.asOf, asOf < expiry

/-- No statement opens a row to a call that has read another one. -/
def ClaimsAsRead (setting : Setting δ η) (s : State δ) : Event η → Prop
  | .create r _ => s.row = none → Outlives setting s r
  | .reclaim r _ => ∀ row ∈ s.row, ∀ asOf ∈ (s.calls r).phase.asOf,
      row.reclaims (setting.fingerprint r) asOf = true → Outlives setting s r
  | .decide q => ∀ existing ∈ (s.calls q).phase.lapsed s.now, ∀ row ∈ s.row,
      row.state = .inProgress → row.leaseToken ≠ existing.leaseToken →
      row.reclaimable s.now = false
  | .markRetryableFailure _ fate => fate.tookEffect = true → ∀ q, ∀ row ∈ s.row,
      (∀ asOf ∈ (s.calls q).phase.asOf, row.reclaimable asOf = true) ∧
      ∀ existing ∈ (s.calls q).phase.lapsed s.now, row.state = .retryableFailure ∨
        row.state = .inProgress ∧ row.leaseToken = existing.leaseToken
  | _ => True

/-- The conditional update of this call matches the row and grants it the key. -/
def Reclaimed (setting : Setting δ η) (s t : State δ) (r : CallId) : Prop :=
  step setting s (.reclaim r .ok) = some t ∧ (t.calls r).phase.isAcquired = true

/-- The update of a granted reclaim found a row that it could reclaim. -/
theorem row_of_reclaimed {r : CallId} (reclaimed : Reclaimed setting s t r) :
    ∃ expiry asOf row, (s.calls r).phase = .reclaiming expiry asOf ∧ s.row = some row ∧
      row.reclaims (setting.fingerprint r) asOf = true ∧ t.row = some (row.reclaim r expiry) := by
  obtain ⟨taken, granted⟩ := reclaimed
  have before : (s.calls r).phase.isAcquired = false := by
    simp only [step, stepReclaim] at taken
    repeat' split at taken
    all_goals simp_all [Phase.isAcquired]
  rcases acquired_cases before granted (effect_of_step taken) with
    ⟨now, phase, started, _⟩ | ⟨expiry, asOf, row, phase, started, present, matched, rfl⟩
  · simp [step, stepReclaim, started] at taken
  · exact ⟨expiry, asOf, row, started, present, matched, rfl⟩

/-- What an event can leave in the table. -/
inductive Leaves (setting : Setting δ η) (s t : State δ) : Event η → Row → Prop
  | kept (event : Event η) (row : Row) (present : s.row = some row) : Leaves setting s t event row
  | created (r : CallId) (fate : Fate) (now : Time) (started : (s.calls r).phase = .creating now)
      (absent : s.row = none) (leased : (t.calls r).lease.isSome = true) :
      Leaves setting s t (.create r fate) (.create (setting.service r).operation
        (setting.fingerprint r) r (now + setting.leaseSeconds * 1000)
        (now + setting.ttlHours * 3600000))
  | reclaimed (r : CallId) (fate : Fate) (expiry asOf : Time) (old : Row)
      (started : (s.calls r).phase = .reclaiming expiry asOf) (present : s.row = some old)
      (matched : old.reclaims (setting.fingerprint r) asOf = true)
      (leased : (t.calls r).lease.isSome = true) :
      Leaves setting s t (.reclaim r fate) (old.reclaim r expiry)
  | finalized (event : Event η) (old : Row) (outcome : IdempotentOutcome) (now : Time)
      (present : s.row = some old) : Leaves setting s t event (old.finalize outcome now)
  | marked (event : Event η) (r : CallId) (old : Row) (writer : event.marks = some r)
      (present : s.row = some old) : Leaves setting s t event old.markRetryableFailure

theorem leaves_of_effect {row : Row} (effect : Effect setting s event t)
    (present : t.row = some row) : Leaves setting s t event row := by
  cases effect with
  | tick | environment | spare | advance | lock | rollback | act => exact .kept _ row present
  | remove => cases present
  | create r fate now phase started absent next =>
      cases present
      exact .created r fate now started absent (by simp)
  | reclaim r fate expiry asOf old phase started unlocked found matched next =>
      cases present
      exact .reclaimed r fate expiry asOf old started found matched (by simp)
  | finalizeAlone event r outcome =>
      obtain ⟨old, found, rfl⟩ := Option.map_eq_some_iff.mp present
      exact .finalized event old outcome s.now found
  | commit r fate write outcome finalizedAt phase started after next =>
      by_cases owner : s.lock = some r
      · simp only [owner, if_true, State.move_row, State.unlock_row, State.apply_row,
          State.release_row] at present
        obtain ⟨old, found, rfl⟩ := Option.map_eq_some_iff.mp present
        exact .finalized _ old outcome finalizedAt found
      · simp only [if_neg owner] at present
        exact .kept _ row present
  | mark event r writer unlocked started =>
      obtain ⟨old, found, rfl⟩ := Option.map_eq_some_iff.mp present
      exact .marked event r old writer found

/-- The clock never goes back. -/
theorem now_le_of_step (taken : step setting s event = some t) : s.now ≤ t.now := by
  cases effect_of_step taken with
  | tick duration => exact Nat.le_add_right _ _
  | commit => split <;> exact Nat.le_refl _
  | _ => exact Nat.le_refl _

/-- A call that has left the first stage never comes back to it. -/
theorem stage_of_step {r : CallId} (late : (s.calls r).phase.stage ≠ 0)
    (taken : step setting s event = some t) : (t.calls r).phase.stage ≠ 0 := by
  by_cases mine : event.caller = some r
  · cases event with
    | tick | environment | removeExpired => cases mine
    | acquire q | create q | find q | decide q | reclaim q | reject q | abandon q | fail q
    | finalizeRejection q | finalizeInTransaction q | commit q | act q | finalize q
    | markRetryableFailure q | crash q =>
        cases mine
        simp only [step, stepAcquire, stepCreate, stepFind, stepDecide, stepReclaim, stepReject,
          stepAbandon, stepFail, stepFinalizeRejection, stepFinalizeInTransaction, stepCommit,
          stepAct, stepFinalize, stepMarkRetryableFailure, stepCrash] at taken
        repeat' split at taken
        all_goals cases taken
        all_goals simp_all [Phase.stage]
  · rwa [phase_of_other mine taken]

/-- A lapsed row stays lapsed. -/
theorem reclaimable_of_le {row : Row} {now later : Time} (lapsed : row.reclaimable now = true)
    (le : now ≤ later) : row.reclaimable later = true := by
  simp only [IdempotencyRequest.reclaimable, Bool.or_eq_true, Bool.and_eq_true, decide_eq_true_eq,
    Option.any_eq_true] at lapsed ⊢
  rcases lapsed with failed | ⟨working, expiry, stored, past⟩
  · exact .inl failed
  · exact .inr ⟨working, expiry, stored, Nat.le_trans past le⟩

/-- What the step that brings a call to this point has read. -/
def Arrives (setting : Setting δ η) (s : State δ) (event : Event η) (r : CallId) : Phase δ → Prop
  | .deciding _ existing => s.row = some existing
  | .rejecting error => event = .reject r error
  | .committing write outcome _ => setting.action r s.domain = some (write, outcome)
  | _ => True

theorem arrives_of_step {r : CallId} (mine : event.caller = some r)
    (taken : step setting s event = some t) : Arrives setting s event r (t.calls r).phase := by
  cases event with
  | tick | environment | removeExpired => cases mine
  | find q fate =>
      cases mine
      simp only [step, stepFind] at taken
      split at taken
      · split at taken <;> cases taken
        · simp [Arrives]
        · rename_i present
          simp [Arrives, present]
        · simp [Arrives]
      · cases taken
  | finalizeInTransaction q fate =>
      cases mine
      simp only [step, stepFinalizeInTransaction] at taken
      split at taken
      · split at taken <;> cases taken
        · rename_i acted
          simp [Arrives, acted]
        · simp [Arrives]
      · cases taken
  | reject q error =>
      cases mine
      simp only [step, stepReject] at taken
      split at taken <;> cases taken
      simp [Arrives]
  | acquire q | create q | decide q | reclaim q | abandon q | fail q | finalizeRejection q
  | commit q | act q | finalize q | markRetryableFailure q | crash q =>
      cases mine
      simp only [step, stepAcquire, stepCreate, stepDecide, stepReclaim, stepAbandon, stepFail,
        stepFinalizeRejection, stepCommit, stepAct, stepFinalize, stepMarkRetryableFailure,
        stepCrash] at taken
      repeat' split at taken
      all_goals cases taken
      all_goals simp only [State.move_phase, if_true, Arrives]

theorem Phase.lapsed_eq_some {phase : Phase δ} {now : Time} {existing : Row} :
    phase.lapsed now = some existing ↔
      (∃ expiry, phase = .deciding expiry existing) ∧ existing.reclaimable now = true := by
  cases phase with
  | deciding expiry read =>
      simp only [lapsed, Option.ite_none_right_eq_some, Option.some.injEq, deciding.injEq]
      constructor
      · rintro ⟨past, rfl⟩
        exact ⟨⟨expiry, rfl, rfl⟩, past⟩
      · rintro ⟨⟨_, _, rfl⟩, past⟩
        exact ⟨past, rfl⟩
  | _ => simp [lapsed]

theorem Phase.asOf_eq_some {phase : Phase δ} {asOf : Time} :
    phase.asOf = some asOf ↔ ∃ expiry, phase = .reclaiming expiry asOf := by
  cases phase <;> simp [Phase.asOf, eq_comm]

theorem Phase.lapsed_of_le {phase : Phase δ} {now later : Time} {existing : Row}
    (read : phase.lapsed now = some existing) (le : now ≤ later) :
    phase.lapsed later = some existing := by
  rw [lapsed_eq_some] at read ⊢
  exact ⟨read.1, reclaimable_of_le read.2 le⟩

/-- The call of the row's token has been granted its lease. -/
def Issued (s : State δ) (row : Row) : Prop :=
  ∀ token ∈ row.leaseToken, (s.calls token).lease.isSome = true

theorem Issued.kept {row : Row} (issued : Issued s row) (sound : Sound s)
    (effect : Effect setting s event t) : Issued t row := by
  intro token holder
  obtain ⟨expiry, granted⟩ := Option.isSome_iff_exists.mp (issued token holder)
  exact Option.isSome_iff_exists.mpr ⟨expiry, lease_kept sound granted effect⟩

/-- A call that has no lease yet is not behind the token of a row. -/
theorem Issued.token_ne {row : Row} {r : CallId} (issued : Issued s row)
    (unleased : (s.calls r).lease = none) : row.leaseToken ≠ some r := by
  intro holder
  have granted := issued r holder
  simp [unleased] at granted

/-- Every row in the table and every row that a call has read carries an issued token. -/
structure Tokens (s : State δ) : Prop where
  row : ∀ row ∈ s.row, Issued s row
  read : ∀ q expiry existing, (s.calls q).phase = .deciding expiry existing → Issued s existing

/-- A write that leaves no token or its own one keeps the tokens issued. -/
theorem issued_of_effect (sound : Sound s) (issued : ∀ row ∈ s.row, Issued s row)
    (effect : Effect setting s event t) : ∀ row ∈ t.row, Issued t row := by
  intro row present token holder
  cases leaves_of_effect effect present with
  | kept event row found => exact (issued row found).kept sound effect token holder
  | created r fate now started absent leased =>
      cases holder
      exact leased
  | reclaimed r fate expiry asOf old started found matched leased =>
      cases holder
      exact leased
  | finalized | marked => cases holder

theorem tokens_of_reachable {guard : State δ → Event η → Prop}
    (reached : (machine setting).Reachable guard s) : Tokens s := by
  refine reached.strengthen Sound (fun _ => sound_of_reachable) ?_ ?_
  · rintro s ⟨now, domain, rfl⟩
    constructor
    · intro row present
      cases present
    · intro q expiry existing started
      cases started
  · intro s event t sound _ _ taken tokens
    have effect := effect_of_step taken
    refine ⟨issued_of_effect sound tokens.row effect, fun q expiry existing started => ?_⟩
    by_cases mine : event.caller = some q
    · have present := arrives_of_step mine taken
      rw [started] at present
      exact (tokens.row existing present).kept sound effect
    · rw [phase_of_other mine taken] at started
      exact (tokens.read q expiry existing started).kept sound effect

/-- Another call has taken the row since it was read. -/
structure TakenSince (existing row : Row) : Prop where
  unfailed : row.state ≠ .retryableFailure
  token : row.state = .inProgress → row.leaseToken ≠ existing.leaseToken

theorem takenSince_finalize (existing row : Row) (outcome : IdempotentOutcome) (now : Time) :
    TakenSince existing (row.finalize outcome now) := by
  constructor <;> simp [IdempotencyRequest.finalize]

/-- A call that has no lease yet is not the one that the row was read with. -/
theorem takenSince_lease {existing row : Row} {r : CallId} (issued : Issued s existing)
    (unleased : (s.calls r).lease = none) (working : row.state = .inProgress)
    (token : row.leaseToken = some r) : TakenSince existing row := by
  constructor
  · simp [working]
  · intro _ same
    exact issued.token_ne unleased (same.symm.trans token)

/-- A call that read the row before another one took it gets it no more. -/
inductive Beaten (q : CallId) (u : State δ) : Prop
  | deciding (existing : Row) (read : (u.calls q).phase.lapsed u.now = some existing)
      (row : ∀ row ∈ u.row, TakenSince existing row)
  | reclaiming (asOf : Time) (decided : (u.calls q).phase.asOf = some asOf)
      (row : ∀ row ∈ u.row, row.reclaimable asOf = false)
  | left (late : (u.calls q).phase.stage ≠ 0)

/-- A row in progress lapses at the end of its lease. -/
theorem reclaimable_of_lt {row : Row} {expiry now : Time} (working : row.state = .inProgress)
    (stored : row.leaseExpiresAt = some expiry) (before : now < expiry) :
    row.reclaimable now = false := by
  simpa [IdempotencyRequest.reclaimable, working, stored] using before

/-- A finalized row never lapses. -/
theorem reclaimable_finalize (row : Row) (outcome : IdempotentOutcome) (finalizedAt now : Time) :
    (row.finalize outcome finalizedAt).reclaimable now = false := by
  simp [IdempotencyRequest.reclaimable, IdempotencyRequest.finalize]

/-- A failure that takes effect is marked on the row that every waiting call has read. -/
theorem claims_of_marks {r : CallId} (claims : ClaimsAsRead setting s event)
    (writer : event.marks = some r) : ∀ q, ∀ row ∈ s.row,
      (∀ asOf ∈ (s.calls q).phase.asOf, row.reclaimable asOf = true) ∧
      ∀ existing ∈ (s.calls q).phase.lapsed s.now, row.state = .retryableFailure ∨
        row.state = .inProgress ∧ row.leaseToken = existing.leaseToken := by
  cases event with
  | markRetryableFailure r' fate =>
      refine claims ?_
      by_contra refused
      simp [Event.marks, refused] at writer
  | _ => simp [Event.marks] at writer

/-- No other call opens the row to a call that waits with its update. -/
theorem closed_of_effect {q : CallId} {asOf : Time} (claims : ClaimsAsRead setting s event)
    (other : event.caller ≠ some q) (decided : (s.calls q).phase.asOf = some asOf)
    (closed : ∀ row ∈ s.row, row.reclaimable asOf = false) (effect : Effect setting s event t) :
    ∀ row ∈ t.row, row.reclaimable asOf = false := by
  intro row present
  cases leaves_of_effect effect present with
  | kept event row found => exact closed row found
  | created r fate now started absent =>
      have different : q ≠ r := by simpa [Event.caller, eq_comm] using other
      exact reclaimable_of_lt rfl rfl
        (claims absent _ (by rw [started]; rfl) q different asOf decided)
  | reclaimed r fate expiry asOf' old started found matched =>
      have different : q ≠ r := by simpa [Event.caller, eq_comm] using other
      exact reclaimable_of_lt rfl rfl (claims old found asOf' (by rw [started]; rfl) matched
        expiry (by rw [started]; rfl) q different asOf decided)
  | finalized event old outcome now found => exact reclaimable_finalize old outcome now asOf
  | marked event r old writer found =>
      have lapsed := (claims_of_marks claims writer q old found).1 asOf decided
      simp [closed old found] at lapsed

/-- No other call brings back the row that this call has read. -/
theorem takenSince_of_effect {q : CallId} {existing : Row} (sound : Sound s)
    (claims : ClaimsAsRead setting s event) (issued : Issued s existing)
    (read : (s.calls q).phase.lapsed s.now = some existing)
    (taken : ∀ row ∈ s.row, TakenSince existing row) (effect : Effect setting s event t) :
    ∀ row ∈ t.row, TakenSince existing row := by
  intro row present
  cases leaves_of_effect effect present with
  | kept event row found => exact taken row found
  | created r fate now started absent =>
      exact takenSince_lease issued (sound.fresh r (by rw [started]; rfl)) rfl rfl
  | reclaimed r fate expiry asOf old started found matched =>
      exact takenSince_lease issued (sound.fresh r (by rw [started]; rfl)) rfl rfl
  | finalized event old outcome now found => exact takenSince_finalize existing old outcome now
  | marked event r old writer found =>
      obtain ⟨unfailed, token⟩ := taken old found
      rcases (claims_of_marks claims writer q old found).2 existing read with
        failed | ⟨working, same⟩
      · exact absurd failed unfailed
      · exact absurd same (token working)

/-- A call that has read a lapsed row decides on it or ends. -/
theorem deciding_own {q : CallId} {existing : Row} (mine : event.caller = some q)
    (read : (s.calls q).phase.lapsed s.now = some existing)
    (taken : step setting s event = some t) :
    (t.calls q).phase.stage ≠ 0 ∨
      event = .decide q ∧ (t.calls q).phase.asOf = some s.now ∧ t.row = s.row := by
  obtain ⟨⟨expiry, started⟩, lapsed⟩ := Phase.lapsed_eq_some.mp read
  cases event with
  | tick | environment | removeExpired => cases mine
  | acquire q | create q | find q | decide q | reclaim q | reject q | abandon q | fail q
  | finalizeRejection q | finalizeInTransaction q | commit q | act q | finalize q
  | markRetryableFailure q | crash q =>
      cases mine
      simp only [step, stepAcquire, stepCreate, stepFind, stepDecide, stepReclaim, stepReject,
        stepAbandon, stepFail, stepFinalizeRejection, stepFinalizeInTransaction, stepCommit,
        stepAct, stepFinalize, stepMarkRetryableFailure, stepCrash, started] at taken
      repeat' split at taken
      all_goals cases taken
      all_goals simp [Phase.asOf, Phase.stage]

/-- A call leaves the first stage with its update. -/
theorem reclaiming_own {q : CallId} {asOf : Time} (mine : event.caller = some q)
    (decided : (s.calls q).phase.asOf = some asOf)
    (taken : step setting s event = some t) : (t.calls q).phase.stage ≠ 0 := by
  obtain ⟨expiry, started⟩ := Phase.asOf_eq_some.mp decided
  cases event with
  | tick | environment | removeExpired => cases mine
  | acquire q | create q | find q | decide q | reclaim q | reject q | abandon q | fail q
  | finalizeRejection q | finalizeInTransaction q | commit q | act q | finalize q
  | markRetryableFailure q | crash q =>
      cases mine
      simp only [step, stepAcquire, stepCreate, stepFind, stepDecide, stepReclaim, stepReject,
        stepAbandon, stepFail, stepFinalizeRejection, stepFinalizeInTransaction, stepCommit,
        stepAct, stepFinalize, stepMarkRetryableFailure, stepCrash, started] at taken
      repeat' split at taken
      all_goals cases taken
      all_goals simp [Phase.stage]

/-- A beaten call stays beaten. -/
theorem Beaten.step {q : CallId} (beaten : Beaten q s) (sound : Sound s) (tokens : Tokens s)
    (claims : ClaimsAsRead setting s event) (taken : step setting s event = some t) :
    Beaten q t := by
  have effect := effect_of_step taken
  have le := now_le_of_step taken
  cases beaten with
  | left late => exact .left (stage_of_step late taken)
  | reclaiming asOf decided closed =>
      by_cases mine : event.caller = some q
      · exact .left (reclaiming_own mine decided taken)
      · exact .reclaiming asOf (by rw [phase_of_other mine taken]; exact decided)
          (closed_of_effect claims mine decided closed effect)
  | deciding existing read others =>
      obtain ⟨⟨expiry, started⟩, _⟩ := Phase.lapsed_eq_some.mp read
      by_cases mine : event.caller = some q
      · rcases deciding_own mine read taken with late | ⟨rfl, decided, same⟩
        · exact .left late
        · refine .reclaiming s.now decided fun row present => ?_
          rw [same] at present
          obtain ⟨unfailed, different⟩ := others row present
          -- the row that stands was taken by another call, so the guard speaks of its lease
          cases state : row.state with
          | inProgress => exact claims existing read row present state (different state)
          | finalized | expired => simp [IdempotencyRequest.reclaimable, state]
          | retryableFailure => exact absurd state unfailed
      · refine .deciding existing ?_
          (takenSince_of_effect sound claims (tokens.read q expiry existing started) read others
            effect)
        rw [phase_of_other mine taken]
        exact Phase.lapsed_of_le read le

theorem beaten_of_path {q : CallId} (reached : (machine setting).Reachable (ClaimsAsRead setting) s)
    (beaten : Beaten q s) (path : (machine setting).Path (ClaimsAsRead setting) s t) :
    Beaten q t := by
  induction path with
  | refl => exact beaten
  | snoc event before admitted taken held =>
      have middle := reached.extend before
      exact held.step (sound_of_reachable middle) (tokens_of_reachable middle) admitted taken

/-- A call that has read the lapsed row is beaten once another one takes it. -/
theorem beaten_of_reclaimed {r q : CallId} (sound : Sound s) (tokens : Tokens s)
    (claims : ClaimsAsRead setting s (.reclaim r .ok)) (first : Reclaimed setting s t r)
    (other : q ≠ r) (contends : (s.calls q).phase.contends s.now = true) : Beaten q t := by
  obtain ⟨expiry, asOf, old, started, found, matched, after⟩ := row_of_reclaimed first
  have same : (t.calls q).phase = (s.calls q).phase :=
    phase_of_other (by simpa [Event.caller] using other.symm) first.1
  cases decided : (s.calls q).phase.asOf with
  | some asOf' =>
      have before : asOf' < expiry := claims old found asOf (by rw [started]; rfl) matched expiry
        (by rw [started]; rfl) q other asOf' decided
      refine .reclaiming asOf' (by rw [same, decided]) fun row present => ?_
      rw [after] at present
      cases present
      exact reclaimable_of_lt rfl rfl before
  | none =>
      obtain ⟨existing, read⟩ : ∃ existing, (s.calls q).phase.lapsed s.now = some existing := by
        simpa [Phase.contends, decided, Option.isSome_iff_exists] using contends
      obtain ⟨⟨expiry', started'⟩, _⟩ := Phase.lapsed_eq_some.mp read
      refine .deciding existing ?_ fun row present => ?_
      · rw [same]
        exact Phase.lapsed_of_le read (now_le_of_step first.1)
      · rw [after] at present
        cases present
        exact takenSince_lease (tokens.read q expiry' _ started')
          (sound.fresh r (by rw [started]; rfl)) rfl rfl

/-- The update of a beaten call matches no row. -/
theorem Beaten.not_reclaimed {q : CallId} (beaten : Beaten q s) : ¬ Reclaimed setting s t q := by
  intro reclaimed
  obtain ⟨_, asOf, row, waiting, present, matched, _⟩ := row_of_reclaimed reclaimed
  cases beaten with
  | left late => exact late (by rw [waiting]; rfl)
  | deciding existing read => simp [waiting, Phase.lapsed] at read
  | reclaiming asOf' decided closed =>
      have same : asOf = asOf' := by simpa [waiting, Phase.asOf] using decided
      simp only [IdempotencyRequest.reclaims, Bool.and_eq_true] at matched
      simp [same, closed row present] at matched

/-- Of the calls that have read a lapsed row before one of them takes it, no other one gets it. -/
theorem not_reclaimed_of_contends {v : State δ} {r q : CallId}
    (reached : (machine setting).Reachable (ClaimsAsRead setting) s)
    (claims : ClaimsAsRead setting s (.reclaim r .ok)) (first : Reclaimed setting s t r)
    (other : q ≠ r) (contends : (s.calls q).phase.contends s.now = true)
    (path : (machine setting).Path (ClaimsAsRead setting) t u) :
    ¬ Reclaimed setting u v q := by
  have beaten := beaten_of_reclaimed (sound_of_reachable reached) (tokens_of_reachable reached)
    claims first other contends
  exact (beaten_of_path (reached.extend (.single _ claims first.1)) beaten path).not_reclaimed

end PostsMedia.Idempotency
