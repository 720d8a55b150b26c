import Mathlib.Data.Nat.Basic
import PostsMedia.Library.Lease
import PostsMedia.Posts.Calls

namespace PostsMedia.Idempotency

open Posts

variable {δ η : Type} {setting : Setting δ η} {s t : State δ} {event : Event η}

/-- The lease that a row stores. -/
def storedLease (row : Row) : Option (CallId × Time) :=
  row.leaseToken.bind fun token => row.leaseExpiresAt.map fun expiry => (token, expiry)

/-- The abstract lease behind the calls on one key. A finalized row closes it. -/
def State.abstractLease (s : State δ) : Lease.State CallId Time where
  now := s.now
  holder := s.row.bind storedLease
  terms r := (s.calls r).lease
  released r := (s.calls r).released
  closed := s.row.any (·.state = .finalized)

/-- The runs without a deleted row in which each failure is marked under its own lease. -/
def MarksFencedKeeping (s : State δ) (event : Event η) : Prop :=
  MarksFenced s event ∧ KeepsRow s event

instance (s : State δ) (event : Event η) : Decidable (MarksFencedKeeping s event) := by
  unfold MarksFencedKeeping; infer_instance

/-- A row that a call may reclaim has no running lease. -/
theorem free_of_reclaims {row : Row} {fingerprint : String} {asOf : Time}
    (formed : row.WellFormed) (present : s.row = some row) (past : asOf ≤ s.now)
    (matched : row.reclaims fingerprint asOf = true) : s.abstractLease.free := by
  intro token expiry held
  simp only [State.abstractLease, present, Option.bind_some, storedLease,
    Option.bind_eq_some_iff, Option.map_eq_some_iff, Prod.mk.injEq] at held
  obtain ⟨_, holder, stored, running, rfl, rfl⟩ := held
  have working : row.state = .inProgress := formed.token.mp (by simp [holder])
  simp only [IdempotencyRequest.reclaims, IdempotencyRequest.reclaimable, working, running,
    Bool.and_eq_true, Bool.or_eq_true, decide_eq_true_eq, Option.any_some] at matched
  simp only [reduceCtorEq, true_and, false_or] at matched
  exact Nat.le_trans matched.2 past

/-- A row that a call may reclaim is not finalized. -/
theorem open_of_reclaims {row : Row} {fingerprint : String} {asOf : Time}
    (present : s.row = some row) (matched : row.reclaims fingerprint asOf = true) :
    s.abstractLease.closed = false := by
  simp only [State.abstractLease, present, Option.any_some, decide_eq_false_iff_not]
  intro finalized
  simp [row.not_reclaims_of_finalized _ _ finalized] at matched

/-- A granted lease is a grant of the abstract lease. -/
theorem grant_of_lease {r : CallId} {row : Row} {expiry : Time} {phase : Phase δ}
    (opened : s.abstractLease.closed = false) (fresh : (s.calls r).lease = none)
    (free : s.abstractLease.free) (stored : storedLease row = some (r, expiry))
    (unfinished : row.state ≠ .finalized) :
    Lease.step s.abstractLease (.grant r expiry) =
      some ((s.lease r row expiry).move r phase).abstractLease := by
  have allowed : s.abstractLease.closed = false ∧ s.abstractLease.terms r = none ∧
      s.abstractLease.free := ⟨opened, fresh, free⟩
  simp only [Lease.step, if_pos allowed, Option.some.injEq]
  simp only [State.abstractLease, State.move_now, State.lease_now, State.move_row, State.lease_row,
    Option.bind_some, stored, State.move_lease, State.lease_lease, State.move_released,
    State.lease_released, Option.any_some, Lease.State.mk.injEq, true_and]
  refine ⟨?_, ?_⟩
  · funext q
    exact Function.update_apply ..
  · rw [show s.row.any (·.state = .finalized) = false from opened]
    simp [unfinished]

/-- The insert of a fresh key grants the abstract lease. -/
theorem grant_of_create (sound : Sound s) {r : CallId} {now : Time} {phase : Phase δ}
    (started : (s.calls r).phase = .creating now) (absent : s.row = none) :
    Lease.step s.abstractLease (.grant r (now + setting.leaseSeconds * 1000)) =
      some ((s.lease r (IdempotencyRequest.create (setting.service r).operation
        (setting.fingerprint r) r (now + setting.leaseSeconds * 1000)
        (now + setting.ttlHours * 3600000)) (now + setting.leaseSeconds * 1000)).move r
          phase).abstractLease := by
  refine grant_of_lease ?_ (sound.fresh r (by rw [started]; rfl)) ?_ rfl ?_
  · simp [State.abstractLease, absent]
  · intro token expiry held
    simp [State.abstractLease, absent] at held
  · simp [IdempotencyRequest.create]

/-- The reclaim of a row grants the abstract lease. -/
theorem grant_of_reclaim (sound : Sound s) {r : CallId} {row : Row} {fingerprint : String}
    {expiry asOf : Time} {phase : Phase δ} (started : (s.calls r).phase = .reclaiming expiry asOf)
    (present : s.row = some row) (matched : row.reclaims fingerprint asOf = true) :
    Lease.step s.abstractLease (.grant r expiry) =
      some ((s.lease r (row.reclaim r expiry) expiry).move r phase).abstractLease := by
  have formed := sound.wellFormed row present
  have past := sound.timed r expiry asOf started
  refine grant_of_lease (open_of_reclaims present matched)
    (sound.fresh r (by rw [started]; rfl)) (free_of_reclaims formed present past matched) rfl ?_
  simp [IdempotencyRequest.reclaim]

/-- A finalized row closes the abstract lease. -/
theorem close_of_release {r : CallId} {row : Row} {outcome : IdempotentOutcome} {now : Time}
    (present : s.row = some row) :
    Lease.step s.abstractLease (.close r) =
      some (s.release r (·.finalize outcome now)).abstractLease := by
  simp only [Lease.step, State.abstractLease, State.release_now, State.release_row,
    present, Option.map_some, Option.bind_some, storedLease, IdempotencyRequest.finalize,
    Option.bind_none, State.release_lease, State.release_released, Option.any_some,
    Option.isSome_some, Bool.and_true, decide_true]
  refine congrArg some ?_
  simp only [Lease.State.mk.injEq, true_and, and_true]
  funext q
  rw [Function.update_apply]
  by_cases same : q = r
  · simp [same]
  · simp [same]

/-- A row write by a `finalize` closes the abstract lease or finds no row. -/
theorem path_of_release {r : CallId} {outcome : IdempotentOutcome} {now : Time} :
    Lease.machine.Path Machine.anything s.abstractLease
      (s.release r (·.finalize outcome now)).abstractLease := by
  cases present : s.row with
  | none =>
      have same : (s.release r (·.finalize outcome now)).abstractLease = s.abstractLease := by
        simp [State.abstractLease, present]
      rw [same]
      exact .refl _
  | some row => exact .single (.close r) trivial (close_of_release present)

/-- A failure that its own holder marks returns the abstract lease. -/
theorem release_of_mark (sound : Sound s) {r : CallId} (held : s.holds r) :
    Lease.step s.abstractLease (.release r) =
      some (s.release r (·.markRetryableFailure)).abstractLease := by
  obtain ⟨row, present, token, working⟩ := sound.holds_inProgress held
  obtain ⟨expiry, running⟩ := Option.isSome_iff_exists.mp
    ((sound.wellFormed row present).expiry.mpr working)
  have holder : s.abstractLease.heldBy r :=
    ⟨expiry, by simp [State.abstractLease, present, storedLease, token, running]⟩
  simp only [Lease.step, if_pos holder, Option.some.injEq]
  simp only [State.abstractLease, State.release_now, State.release_row, present, Option.map_some,
    Option.bind_some, storedLease, IdempotencyRequest.markRetryableFailure, Option.bind_none,
    State.release_lease, State.release_released, Option.any_some, working, Option.isSome_some,
    Bool.and_true, Lease.State.mk.injEq, true_and]
  refine ⟨?_, by simp⟩
  funext q
  rw [Function.update_apply]
  by_cases same : q = r
  · simp [same]
  · simp [same]

/-- The abstract lease answers every effect. -/
theorem path_of_effect (sound : Sound s) (guarded : MarksFencedKeeping s event)
    (effect : Effect setting s event t) :
    Lease.machine.Path Machine.anything s.abstractLease t.abstractLease := by
  cases effect with
  | tick duration =>
      refine .single (.wait (s.now + duration)) trivial ?_
      exact if_pos (Nat.le_add_right s.now duration)
  | environment | spare => exact .refl _
  | remove now row present expired past unlocked =>
      have kept : now < row.expiresAt := guarded.2 row present
      exact absurd expired (Nat.not_le_of_lt kept)
  | advance event r phase before after forward resting timed =>
      have same : (s.move r phase).abstractLease = s.abstractLease := by
        simp [State.abstractLease]
      rw [same]
      exact .refl _
  | create r fate now phase started absent next =>
      exact .single (.grant r (now + setting.leaseSeconds * 1000)) trivial
        (grant_of_create sound started absent)
  | reclaim r fate expiry asOf row phase started unlocked present matched next =>
      exact .single (.grant r expiry) trivial (grant_of_reclaim sound started present matched)
  | finalizeAlone event r outcome phase writer unlocked before calm after next =>
      have same : ((s.release r (·.finalize outcome s.now)).move r phase).abstractLease =
          (s.release r (·.finalize outcome s.now)).abstractLease := by simp [State.abstractLease]
      rw [same]
      exact path_of_release
  | lock r write outcome started unlocked joins acted =>
      have same : (({ s with lock := s.row.map fun _ => r } : State δ).move r
          (.committing write outcome s.now)).abstractLease = s.abstractLease := by
        simp [State.abstractLease]
      rw [same]
      exact .refl _
  | commit r fate write outcome finalizedAt phase started after next =>
      have same (u : State δ) : (((u.apply r write).unlock r).move r phase).abstractLease =
          u.abstractLease := by simp [State.abstractLease]
      rw [same]
      split
      · exact path_of_release
      · exact .refl _
  | rollback event r phase after next =>
      have same : ((s.unlock r).move r phase).abstractLease = s.abstractLease := by
        simp [State.abstractLease]
      rw [same]
      exact .refl _
  | act r fate write outcome phase started wrapped acted after next =>
      have same : ((s.apply r write).move r phase).abstractLease = s.abstractLease := by
        simp [State.abstractLease]
      rw [same]
      exact .refl _
  | mark event r writer unlocked started =>
      have same : ((s.release r (·.markRetryableFailure)).move r (.settled .failed)).abstractLease =
          (s.release r (·.markRetryableFailure)).abstractLease := by simp [State.abstractLease]
      rw [same]
      exact .single (.release r) trivial (release_of_mark sound (guarded.1 r writer))

/-- The calls on one key simulate the abstract lease in these runs. -/
def leaseSimulation (setting : Setting δ η) :
    Machine.Simulation (machine setting) (Lease.machine : Machine (Lease.State CallId Time) _)
      MarksFencedKeeping where
  related s a := Sound s ∧ a = s.abstractLease
  start := by
    rintro s ⟨now, domain, rfl⟩
    exact ⟨_, ⟨rfl, rfl, fun _ => rfl, fun _ => rfl⟩, sound_fresh now domain, rfl⟩
  follow := by
    rintro s a event t ⟨sound, rfl⟩ guarded taken
    have effect := effect_of_step taken
    exact ⟨_, path_of_effect sound guarded effect, sound.effect effect, rfl⟩

/-- The running leases of one key exclude each other in these runs. -/
theorem exclusive_of_reachable (reached : (machine setting).Reachable MarksFencedKeeping s) :
    Lease.Exclusive s.abstractLease := by
  obtain ⟨a, reached, _, rfl⟩ := (leaseSimulation setting).reachable reached
  exact Lease.exclusive_of_reachable reached

/-- The call was granted the key and has not ended its work yet. -/
def Phase.isAcquired : Phase δ → Bool
  | .acquired => true
  | _ => false

theorem Phase.stage_of_isAcquired {phase : Phase δ} (acquired : phase.isAcquired = true) :
    phase.stage = 1 ∧ phase.inTransaction = false := by
  cases phase <;> simp [isAcquired, stage, inTransaction] at acquired ⊢

/-- A call is granted the key by its insert or by its conditional update. -/
theorem acquired_cases {q : CallId} (before : (s.calls q).phase.isAcquired = false)
    (after : (t.calls q).phase.isAcquired = true) (effect : Effect setting s event t) :
    (∃ now phase, (s.calls q).phase = .creating now ∧ s.row = none ∧
      t = (s.lease q (IdempotencyRequest.create (setting.service q).operation
        (setting.fingerprint q) q (now + setting.leaseSeconds * 1000)
        (now + setting.ttlHours * 3600000)) (now + setting.leaseSeconds * 1000)).move q phase) ∨
    ∃ expiry asOf row phase, (s.calls q).phase = .reclaiming expiry asOf ∧ s.row = some row ∧
      row.reclaims (setting.fingerprint q) asOf = true ∧
      t = (s.lease q (row.reclaim q expiry) expiry).move q phase := by
  obtain ⟨stage, outside⟩ := Phase.stage_of_isAcquired after
  cases effect with
  | tick | environment | spare | remove => simp [before] at after
  | create r fate now phase started absent next =>
      by_cases same : q = r
      · subst same
        exact .inl ⟨now, phase, started, absent, rfl⟩
      · simp [same, before] at after
  | reclaim r fate expiry asOf row phase started unlocked present matched next =>
      by_cases same : q = r
      · subst same
        exact .inr ⟨expiry, asOf, row, phase, started, present, matched, rfl⟩
      · simp [same, before] at after
  | lock r write outcome started unlocked joins acted =>
      by_cases same : q = r
      · simp [same, Phase.inTransaction] at outside
      · simp [same, before] at after
  | advance event r phase calm next forward resting timed =>
      by_cases same : q = r
      · simp [same, resting] at stage
      · simp [same, before] at after
  | finalizeAlone event r outcome phase writer unlocked early calm late next =>
      by_cases same : q = r
      · simp [same, late] at stage
      · simp [same, before] at after
  | commit r fate write outcome finalizedAt phase started late next =>
      by_cases same : q = r
      · simp [same, late] at stage
      · have kept : (s.calls q).phase.isAcquired = true := by
          rw [State.move_phase, if_neg same] at after
          split at after <;> simpa using after
        simp [before] at kept
  | rollback event r phase late next | act r fate write outcome phase started wrapped acted late =>
      by_cases same : q = r
      · simp [same, late] at stage
      · simp [same, before] at after
  | mark event r writer unlocked started =>
      by_cases same : q = r
      · simp [same, Phase.stage] at stage
      · simp [same, before] at after

/-- Every grant of the key is a grant of the abstract lease. -/
theorem grant_of_acquired {q : CallId} (sound : Sound s)
    (before : (s.calls q).phase.isAcquired = false) (after : (t.calls q).phase.isAcquired = true)
    (effect : Effect setting s event t) :
    ∃ expiry, Lease.step s.abstractLease (.grant q expiry) = some t.abstractLease := by
  rcases acquired_cases before after effect with
    ⟨now, phase, started, absent, rfl⟩ | ⟨expiry, asOf, row, phase, started, present, matched, rfl⟩
  · exact ⟨_, grant_of_create sound started absent⟩
  · exact ⟨expiry, grant_of_reclaim sound started present matched⟩

/-- An issued lease keeps its expiry. -/
theorem lease_kept {r : CallId} {expiry : Time} (sound : Sound s)
    (issued : (s.calls r).lease = some expiry) (effect : Effect setting s event t) :
    (t.calls r).lease = some expiry := by
  cases effect with
  | tick | environment | spare | remove => exact issued
  | advance | finalizeAlone | lock | rollback | act | mark => simpa using issued
  | commit => split <;> simpa using issued
  | create r' fate now phase started absent next =>
      have different : r ≠ r' := by
        rintro rfl
        simp [sound.fresh r (by rw [started]; rfl)] at issued
      simpa [different] using issued
  | reclaim r' fate expiry' asOf row phase started unlocked present matched next =>
      have different : r ≠ r' := by
        rintro rfl
        simp [sound.fresh r (by rw [started]; rfl)] at issued
      simpa [different] using issued

/-- An issued lease keeps its expiry along every run. -/
theorem lease_of_path {guard : State δ → Event η → Prop} {r : CallId} {expiry : Time}
    (reached : (machine setting).Reachable guard s) (issued : (s.calls r).lease = some expiry)
    (path : (machine setting).Path guard s t) : (t.calls r).lease = some expiry := by
  induction path with
  | refl => exact issued
  | snoc event before admitted taken kept =>
      exact lease_kept (sound_of_reachable (reached.extend before)) kept (effect_of_step taken)

/-- No other call is granted the key before the end of a granted lease, unless its holder finalized
or marked a failure. -/
def LeaseExclusion (setting : Setting δ η) (guard : State δ → Event η → Prop) : Prop :=
  ∀ u s event t r q expiry, (machine setting).Reachable guard u →
    (u.calls r).phase.isAcquired = true → (u.calls r).lease = some expiry →
    (machine setting).Path guard u s → (s.calls r).released = false → q ≠ r → guard s event →
    step setting s event = some t → (s.calls q).phase.isAcquired = false →
    (t.calls q).phase.isAcquired = true → expiry ≤ s.now

/-- Leases exclude each other while every `markRetryableFailure` runs under the lease of its own
call. -/
theorem leaseExclusion_of_marksFenced (setting : Setting δ η) :
    LeaseExclusion setting MarksFencedKeeping := by
  intro u s event t r q expiry reached acquired issued path unreleased different guarded taken
    before after
  have now := reached.extend path
  have sound := sound_of_reachable now
  obtain ⟨granted, grant⟩ := grant_of_acquired sound before after (effect_of_step taken)
  have running := lease_of_path reached issued path
  exact Lease.grant_excludes (exclusive_of_reachable now) grant running unreleased

/-- The first client outlives its lease, and the second one reclaims the key. -/
def reclaimed : List (Event Empty) :=
  [.acquire 0, .create 0 .ok, .tick 900000, .acquire 1, .create 1 .ok, .find 1 .ok, .decide 1,
    .reclaim 1 .ok]

/-- A third client asks for the key. -/
def asking (r : CallId) : List (Event Empty) :=
  [.acquire r, .create r .ok, .find r .ok, .decide r]

/-- The second client is granted the key exactly at the end of the first lease. -/
theorem jsonSetting_reclaims : ∃ u s t : State Tables,
    (machine jsonSetting).Reachable MarksFencedKeeping u ∧
      (machine jsonSetting).Path MarksFencedKeeping u s ∧
      (u.calls 0).lease = some 900000 ∧ (t.calls 1).phase.isAcquired = true ∧ 900000 ≤ s.now := by
  obtain ⟨u, s, reached, path, before, after⟩ := (machine jsonSetting).path_of_observed
    MarksFencedKeeping (fun u => ((u.calls 0).phase.isAcquired, (u.calls 0).lease))
    (true, some 900000)
    (fun s => ((s.calls 0).released, (s.calls 1).phase.isAcquired,
      (step jsonSetting s (.reclaim 1 .ok)).map fun t => (t.calls 1).phase.isAcquired))
    (false, false, some true) [.acquire 0, .create 0 .ok]
    (.tick 900000 :: asking 1) jsonStart_initial (by decide)
  simp only [Prod.mk.injEq, Option.map_eq_some_iff] at before after
  obtain ⟨acquired, issued⟩ := before
  obtain ⟨unreleased, idle, t, taken, granted⟩ := after
  have fenced : MarksFencedKeeping s (.reclaim 1 .ok : Event Empty) :=
    ⟨by simp [MarksFenced, Event.marks], trivial⟩
  exact ⟨u, s, t, reached, path, issued, granted,
    leaseExclusion_of_marksFenced jsonSetting u s (.reclaim 1 .ok) t 0 1 900000 reached acquired
      issued path unreleased (by decide) fenced taken idle granted⟩

/-- The late failure of the first client lets a third one in beside the second one. -/
theorem jsonSetting_not_leaseExclusion : ¬ LeaseExclusion jsonSetting KeepsRow := by
  intro exclusion
  obtain ⟨u, s, reached, path, before, after⟩ := (machine jsonSetting).path_of_observed
    KeepsRow (fun u => ((u.calls 1).phase.isAcquired, (u.calls 1).lease)) (true, some 1800000)
    (fun s => (s.now, (s.calls 1).released, (s.calls 2).phase.isAcquired,
      (step jsonSetting s (.reclaim 2 .ok)).map fun t => (t.calls 2).phase.isAcquired))
    (900000, false, false, some true) reclaimed
    ([.fail 0, .markRetryableFailure 0 .ok] ++ asking 2) jsonStart_initial (by decide)
  simp only [Prod.mk.injEq, Option.map_eq_some_iff] at before after
  obtain ⟨acquired, issued⟩ := before
  obtain ⟨early, unreleased, idle, t, taken, granted⟩ := after
  have late := exclusion u s (.reclaim 2 .ok) t 1 2 1800000 reached acquired issued path unreleased
    (by decide) trivial taken idle granted
  rw [early] at late
  exact absurd late (by decide)

end PostsMedia.Idempotency
