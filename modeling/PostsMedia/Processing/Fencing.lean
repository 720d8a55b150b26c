import PostsMedia.Media.Repository
import PostsMedia.Processing.RowMachine

namespace PostsMedia.Processing

variable {s t : RowState} {event : RowEvent}

/-- The abstract lease behind a media row. A completed row closes it. -/
def RowState.abstractLease (s : RowState) : Lease.State LeaseToken Time where
  now := s.now
  holder := RowState.storedLease s.rows.media
  terms := s.terms
  released := s.released
  closed := s.rows.media.processingStatus = .completed

/-- A row whose token matches stores a lease of that token. -/
theorem heldBy_of_token (leased : s.rows.media.Leased) {token : LeaseToken}
    (stored : s.rows.media.processingLeaseToken = some token) :
    s.abstractLease.heldBy token := by
  have working := leased.token.mp (by simp [stored])
  obtain ⟨expiry, running⟩ := Option.isSome_iff_exists.mp (leased.expiry.mpr working)
  exact ⟨expiry, by simp [RowState.abstractLease, RowState.storedLease, stored, running]⟩

/-- The holder of the abstract lease is the token in the row. -/
theorem token_of_heldBy {token : LeaseToken} (held : s.abstractLease.heldBy token) :
    s.rows.media.processingLeaseToken = some token := by
  obtain ⟨expiry, stored⟩ := held
  simp only [RowState.abstractLease, RowState.storedLease, Option.bind_eq_some_iff,
    Option.map_eq_some_iff, Prod.mk.injEq] at stored
  obtain ⟨holder, present, _, _, rfl, _⟩ := stored
  exact present

/-- A row with a matching token is being processed. -/
theorem processing_of_guarded (leased : s.rows.media.Leased) {generation : Nat}
    {token : LeaseToken} (matched : s.rows.media.guarded generation token = true) :
    s.rows.media.processingLeaseToken = some token ∧
      s.rows.media.processingStatus = .processing := by
  simp only [Media.guarded, Bool.and_eq_true, decide_eq_true_eq] at matched
  exact ⟨matched.2, leased.token.mp (by simp [matched.2])⟩

/-- A claim that matches the row grants the abstract lease. -/
theorem grant_of_claim {generation leaseSeconds : Nat} {jobId : String} {token : LeaseToken}
    {asOf : Time} (past : asOf ≤ s.now) (fresh : s.terms token = none)
    (matched : s.rows.media.claimable generation asOf = true) :
    Lease.step s.abstractLease (.grant token (asOf + leaseSeconds * 1000)) =
      some (s.record token { s.rows with
        media := s.rows.media.claimed jobId leaseSeconds token asOf }).abstractLease := by
  simp only [Media.claimable, Bool.and_eq_true, decide_eq_true_eq] at matched
  obtain ⟨⟨_, unfinished⟩, expired⟩ := matched
  have free : s.abstractLease.free := by
    intro holder expiry held
    simp only [RowState.abstractLease, RowState.storedLease, Option.bind_eq_some_iff,
      Option.map_eq_some_iff, Prod.mk.injEq] at held
    obtain ⟨_, _, _, running, rfl, rfl⟩ := held
    rw [running, Option.all_some, decide_eq_true_eq] at expired
    exact Nat.le_trans expired past
  have opened : s.abstractLease.closed = false := by
    simp [RowState.abstractLease, unfinished]
  have allowed : s.abstractLease.closed = false ∧ s.abstractLease.terms token = none ∧
      s.abstractLease.free := ⟨opened, fresh, free⟩
  simp only [Lease.step, if_pos allowed, Option.some.injEq]
  simp [RowState.abstractLease, RowState.record, RowState.storedLease, Media.claimed, unfinished]

/-- A renewal that matches the row extends the abstract lease. -/
theorem renew_of_renewable (leased : s.rows.media.Leased) {generation leaseSeconds : Nat}
    {token : LeaseToken} {asOf : Time}
    (matched : s.rows.media.renewable generation token = true) :
    Lease.step s.abstractLease (.renew token (asOf + leaseSeconds * 1000)) =
      some (s.record token { s.rows with
        media := s.rows.media.renewed leaseSeconds asOf }).abstractLease := by
  simp only [Media.renewable, Bool.and_eq_true, decide_eq_true_eq] at matched
  obtain ⟨stored, working⟩ := processing_of_guarded leased matched.1
  simp only [Lease.step, if_pos (heldBy_of_token leased stored), Option.some.injEq]
  simp [RowState.abstractLease, RowState.record, RowState.storedLease, Media.renewed, stored]

/-- The abstract lease answers every statement on the row. -/
theorem path_of_rowEffect (leased : s.rows.media.Leased) (effect : RowEffect s event t) :
    Lease.machine.Path Machine.anything s.abstractLease t.abstractLease := by
  cases effect with
  | tick duration =>
      refine .single (.wait (s.now + duration)) trivial ?_
      exact if_pos (Nat.le_add_right s.now duration)
  | keep => exact .refl _
  | claim generation jobId leaseSeconds token asOf past fresh matched =>
      exact .single (.grant token _) trivial (grant_of_claim past fresh matched)
  | renew leaseSeconds generation token asOf matched =>
      exact .single (.renew token _) trivial (renew_of_renewable leased matched)
  | complete operation generation token asOf rows metadata matched done =>
      refine .single (.close token) trivial ?_
      simp [Lease.machine, Lease.step, RowState.abstractLease, RowState.giveUp,
        RowState.storedLease, done, Media.completed]
  | fail operation generation token asOf rows final errorCode errorMessage matched done =>
      obtain ⟨stored, working⟩ := processing_of_guarded leased matched
      refine .single (.release token) trivial ?_
      simp only [Lease.machine, Lease.step, if_pos (heldBy_of_token leased stored),
        Option.some.injEq]
      cases final <;>
        simp [RowState.abstractLease, RowState.giveUp, RowState.storedLease, done, Media.failed,
          working]
  | other event rows kept =>
      have same : ({ s with rows := rows } : RowState).abstractLease = s.abstractLease := by
        simp [RowState.abstractLease, kept]
      rw [same]
      exact .refl _
  | retry id dispatchId rows failed done =>
      have unheld : s.rows.media.processingLeaseToken = none := by
        simpa [failed] using leased.token
      have same : ({ s with rows := rows } : RowState).abstractLease = s.abstractLease := by
        simp [RowState.abstractLease, RowState.storedLease, done, Media.retried, failed, unheld]
      rw [same]
      exact .refl _

/-- Every statement keeps the row's lease columns together with its status. -/
theorem leased_of_rowEffect (leased : s.rows.media.Leased) (effect : RowEffect s event t) :
    t.rows.media.Leased := by
  cases effect with
  | tick | keep => exact leased
  | claim generation jobId leaseSeconds token asOf past fresh matched =>
      exact Media.claimed_leased ..
  | renew leaseSeconds generation token asOf matched =>
      exact Media.renewed_leased _ leased matched _ _
  | complete operation generation token asOf rows metadata matched done =>
      simpa [RowState.giveUp, done] using Media.completed_leased ..
  | fail operation generation token asOf rows final errorCode errorMessage matched done =>
      simpa [RowState.giveUp, done] using Media.failed_leased ..
  | other event rows kept => simpa [kept] using leased
  | retry id dispatchId rows failed done => simpa [done] using Media.retried_leased _

/-- The statements on a media row simulate the abstract lease. -/
def rowSimulation :
    Machine.Simulation rowMachine (Lease.machine : Machine (Lease.State LeaseToken Time) _)
      Machine.anything where
  related s a := s.rows.media.Leased ∧ a = s.abstractLease
  start := by
    intro s ⟨fresh, unissued, unreleased⟩
    refine ⟨s.abstractLease, ⟨?_, ?_, unissued, unreleased⟩, fresh.leased, rfl⟩
    · simp [RowState.abstractLease, RowState.storedLease, fresh.token]
    · simp [RowState.abstractLease, fresh.status]
  follow := by
    rintro s a event t ⟨leased, rfl⟩ _ taken
    have effect := rowEffect_of_step taken
    exact ⟨_, path_of_rowEffect leased effect, leased_of_rowEffect leased effect, rfl⟩

/-- The event is a claim under this token, and it takes effect. -/
def GrantsClaim (s : RowState) (event : RowEvent) (token : LeaseToken) : Prop :=
  ∃ generation jobId leaseSeconds asOf,
    event = .claim generation jobId leaseSeconds token asOf ∧
      (claim s.rows generation jobId leaseSeconds token asOf).2 = true

/-- Leases on a media row exclude each other, and a replaced token has no effect any more. -/
structure LeaseSafety (m : Machine RowState RowEvent) : Prop where
  claimed : ∀ s t generation jobId leaseSeconds token asOf,
    m.step s (.claim generation jobId leaseSeconds token asOf) = some t →
      (claim s.rows generation jobId leaseSeconds token asOf).2 = true →
        t.terms token = some (asOf + leaseSeconds * 1000)
  renewed : ∀ s t leaseSeconds generation token asOf,
    m.step s (.operate (.renew leaseSeconds) generation token asOf) = some t →
      ((Operation.renew leaseSeconds).run s.rows generation token asOf).2 = true →
        t.terms token = some (asOf + leaseSeconds * 1000)
  exclusion : ∀ s event t token other expiry, m.Reachable Machine.anything s →
    m.step s event = some t → GrantsClaim s event token → s.terms other = some expiry →
    s.released other = false → expiry ≤ s.now
  fencing : ∀ s event t u token, m.Reachable Machine.anything s → s.terms token ≠ none →
    m.step s event = some t →
    ((∃ other, GrantsClaim s event other) ∨ ∃ id dispatchId, event = .retry id dispatchId) →
    m.Path Machine.anything t u → ∀ (operation : Operation) generation asOf,
      operation.call u.rows generation token asOf = (u.rows, operation.loss)

/-- A claim that takes effect is a grant of the abstract lease. -/
theorem grant_of_grantsClaim {token : LeaseToken} (taken : rowStep s event = some t)
    (granted : GrantsClaim s event token) :
    s.terms token = none ∧
      ∃ expiry, Lease.step s.abstractLease (.grant token expiry) = some t.abstractLease := by
  obtain ⟨generation, jobId, leaseSeconds, asOf, rfl, matched⟩ := granted
  simp only [claim] at matched
  split at matched
  · rename_i claimable
    simp only [rowStep, claim, if_pos claimable] at taken
    split at taken
    · rename_i allowed
      cases taken
      exact ⟨allowed.2, _, grant_of_claim allowed.1 allowed.2 claimable⟩
    · cases taken
  · cases matched

/-- A claim by another token or a manual retry takes the lease away for good. -/
theorem lost_of_replaced {token : LeaseToken} (issued : s.terms token ≠ none)
    (leased : s.rows.media.Leased) (taken : rowStep s event = some t)
    (replaced : (∃ other, GrantsClaim s event other) ∨
      ∃ id dispatchId, event = .retry id dispatchId) :
    Lease.Lost token t.abstractLease := by
  rcases replaced with ⟨other, granted⟩ | ⟨id, dispatchId, rfl⟩
  · obtain ⟨unissued, expiry, grant⟩ := grant_of_grantsClaim taken granted
    have different : token ≠ other := by
      intro same
      exact issued (same ▸ unissued)
    simp only [Lease.step] at grant
    split at grant
    · have after := Option.some.inj grant
      refine ⟨?_, ?_⟩
      · rw [← after]
        simpa [RowState.abstractLease, Function.update_of_ne different] using issued
      · rw [← after]
        simp [Lease.State.heldBy, Ne.symm different]
    · cases grant
  · have effect := rowEffect_of_step taken
    have kept := leased_of_rowEffect leased effect
    obtain ⟨rows, retried, rfl⟩ := Option.map_eq_some_iff.mp taken
    simp only [retry] at retried
    split at retried <;> cases retried
    refine ⟨issued, ?_⟩
    intro held
    have stored := token_of_heldBy held
    simp [Media.retried] at stored

/-- Claims, renewals, ends, publications and retries keep the processing lease safe. -/
theorem rowMachine_leaseSafety : LeaseSafety rowMachine where
  claimed s t generation jobId leaseSeconds token asOf taken granted := by
    simp only [claim] at granted
    split at granted
    · rename_i claimable
      simp only [rowMachine, rowStep, claim, if_pos claimable] at taken
      split at taken <;> cases taken
      exact Function.update_self ..
    · cases granted
  renewed s t leaseSeconds generation token asOf taken granted := by
    simp only [Operation.run] at granted
    split at granted
    · rename_i renewable
      simp only [rowMachine, rowStep, Operation.run, if_pos renewable] at taken
      split at taken <;> cases taken
      exact Function.update_self ..
    · cases granted
  exclusion s event t token other expiry reached taken granted issued unreleased := by
    obtain ⟨a, abstract, leased, rfl⟩ := rowSimulation.reachable reached
    obtain ⟨_, term, grant⟩ := grant_of_grantsClaim taken granted
    exact Lease.grant_excludes (Lease.exclusive_of_reachable abstract) grant issued unreleased
  fencing s event t u token reached issued taken replaced path operation generation asOf := by
    obtain ⟨a, _, leased, rfl⟩ := rowSimulation.reachable reached
    have kept := leased_of_rowEffect leased (rowEffect_of_step taken)
    have lost := lost_of_replaced issued leased taken replaced
    obtain ⟨b, continued, later, rfl⟩ := rowSimulation.path ⟨kept, rfl⟩ path
    have still := Lease.lost_path continued lost
    have unheld : u.rows.media.processingLeaseToken ≠ some token :=
      fun stored => still.displaced (heldBy_of_token later stored)
    exact operation.call_of_lost unheld

/-- One uploaded image before any worker saw it. -/
def sampleRows : Rows where
  media := (createWithDispatch sampleInput).1
  variants := []
  attempts := []
  dispatches := [(createWithDispatch sampleInput).2]

def sampleStart : RowState := ⟨0, sampleRows, fun _ => none, fun _ => false⟩

theorem sampleStart_initial : rowMachine.initial sampleStart :=
  ⟨createWithDispatch_fresh sampleInput, fun _ => rfl, fun _ => rfl⟩

/-- A second worker claims the media at the end of the first lease, and the first one learns it. -/
theorem rowMachine_fences : ∃ s : RowState, rowMachine.Reachable Machine.anything s ∧
    s.rows.media.processingLeaseToken = some 1 ∧
      (Operation.renew 60).call s.rows 1 0 s.now = (s.rows, .ok false) := by
  obtain ⟨s, reached, observed⟩ := rowMachine.reachable_of_observed Machine.anything
    (fun s => (s.terms 0, (claim s.rows 1 "job" 60 1 60000).2,
      (rowStep s (.claim 1 "job" 60 1 60000)).map (·.rows.media.processingLeaseToken)))
    (some 60000, true, some (some 1)) [.claim 1 "job" 60 0 0, .tick 60000]
    sampleStart_initial (by decide)
  simp only [Prod.mk.injEq, Option.map_eq_some_iff] at observed
  obtain ⟨issued, matched, t, taken, token⟩ := observed
  have fenced := rowMachine_leaseSafety.fencing s (.claim 1 "job" 60 1 60000) t t 0 reached
    (by simp [issued]) taken (.inl ⟨1, 1, "job", 60, 60000, rfl, matched⟩) (.refl t) (.renew 60) 1
    t.now
  exact ⟨t, reached.extend (.single (.claim 1 "job" 60 1 60000) trivial taken), token, fenced⟩

end PostsMedia.Processing
