import PostsMedia.Idempotency.Races

namespace PostsMedia.Idempotency

open Posts

variable {δ η : Type} {setting : Setting δ η} {s t u : State δ} {event : Event η}

/-- A `markRetryableFailure` takes effect in a run from one state to the other. -/
def FailsBetween (setting : Setting δ η) (t u : State δ) : Prop :=
  ∃ v event w, (machine setting).Path Machine.anything t v ∧ event.marks.isSome = true ∧
    step setting v event = some w ∧ (machine setting).Path Machine.anything w u

/-- The row that a call finds for its update in `u` has failed or expired since the run was
in `s`. -/
def LapsedSince (setting : Setting δ η) (s t u : State δ) (asOf : Time) : Prop :=
  ∃ row, u.row = some row ∧
    (row.state = .retryableFailure ∧ FailsBetween setting t u ∨
      row.state = .inProgress ∧ ∃ token expiry, row.leaseToken = some token ∧
        row.leaseExpiresAt = some expiry ∧ expiry ≤ asOf ∧ (s.calls token).lease = none)

/-- A key stays with one request. Only the race for a lapsed row depends on the guard. -/
structure KeyBinding (setting : Setting δ η) (guard : State δ → Event η → Prop) : Prop where
  /-- The fingerprint of a row stays from its creation to its deletion. -/
  kept : ∀ s t row, (machine setting).Reachable Machine.anything s → s.row = some row →
    (machine setting).Path KeepsRow s t →
    ∃ later, t.row = some later ∧ later.requestFingerprint = row.requestFingerprint
  /-- A call acquires only a new row or one with its own fingerprint. -/
  acquired : ∀ s event t r, (machine setting).Reachable Machine.anything s →
    step setting s event = some t → (s.calls r).phase.isAcquired = false →
    (t.calls r).phase.isAcquired = true →
    (∃ row, t.row = some row ∧ row.leaseToken = some r ∧
      row.requestFingerprint = some (setting.fingerprint r)) ∧
    ∀ row, s.row = some row → row.requestFingerprint = some (setting.fingerprint r)
  /-- A call replays only a row that it has read and that has its own fingerprint. -/
  replayed : ∀ s r expiry existing outcome, (machine setting).Reachable Machine.anything s →
    (s.calls r).phase = .deciding expiry existing →
    reconcileExisting existing (setting.fingerprint r) s.now = .settled (.replay outcome) →
    existing.requestFingerprint = some (setting.fingerprint r) ∧
      ∃ u, (machine setting).Reachable Machine.anything u ∧ u.row = some existing ∧
        (machine setting).Path Machine.anything u s
  /-- Of the calls that have read a lapsed row before one of them takes it, no other one gets it. -/
  once : ∀ s t u v r q, (machine setting).Reachable guard s → guard s (.reclaim r .ok) →
    Reclaimed setting s t r → q ≠ r → (s.calls q).phase.contends s.now = true →
    (machine setting).Path guard t u → ¬ Reclaimed setting u v q
  /-- A row that one call has reclaimed is reclaimed again only after a new expiry or failure. -/
  anew : ∀ s t u v r q, (machine setting).Reachable Machine.anything s →
    Reclaimed setting s t r → (machine setting).Path Machine.anything t u →
    Reclaimed setting u v q →
    ∃ expiry asOf, (u.calls q).phase = .reclaiming expiry asOf ∧ asOf ≤ u.now ∧
      LapsedSince setting s t u asOf
  /-- A row in progress can be reclaimed from a definite time on. -/
  definite : ∀ s row, (machine setting).Reachable Machine.anything s → s.row = some row →
    row.state = .inProgress → ∃ expiry, row.leaseExpiresAt = some expiry ∧
      ∀ now, row.reclaimable now = true ↔ expiry ≤ now

/-- An effect that keeps the row keeps its fingerprint. -/
theorem fingerprint_kept {row : Row} (keeps : KeepsRow s event) (present : s.row = some row)
    (effect : Effect setting s event t) :
    ∃ later, t.row = some later ∧ later.requestFingerprint = row.requestFingerprint := by
  cases effect with
  | tick | environment | spare | advance | lock | rollback | act => exact ⟨row, present, rfl⟩
  | remove now old found expired past unlocked =>
      have before : now < old.expiresAt := keeps old found
      exact absurd expired (Nat.not_le_of_lt before)
  | create r fate now phase started absent next => simp [present] at absent
  | reclaim r fate expiry asOf old phase started unlocked found matched next =>
      rw [present] at found
      cases found
      exact ⟨row.reclaim r expiry, rfl, rfl⟩
  | finalizeAlone event r outcome phase writer unlocked before calm after next =>
      exact ⟨row.finalize outcome s.now, by simp [present], rfl⟩
  | commit r fate write outcome finalizedAt phase started after next =>
      by_cases owner : s.lock = some r
      · exact ⟨row.finalize outcome finalizedAt, by simp [owner, present], rfl⟩
      · exact ⟨row, by simp [owner, present], rfl⟩
  | mark event r writer unlocked started =>
      exact ⟨row.markRetryableFailure, by simp [present], rfl⟩

/-- A granted call owns a row with its own fingerprint. -/
theorem fingerprint_of_acquired {r : CallId} (before : (s.calls r).phase.isAcquired = false)
    (after : (t.calls r).phase.isAcquired = true) (effect : Effect setting s event t) :
    (∃ row, t.row = some row ∧ row.leaseToken = some r ∧
      row.requestFingerprint = some (setting.fingerprint r)) ∧
    ∀ row, s.row = some row → row.requestFingerprint = some (setting.fingerprint r) := by
  rcases acquired_cases before after effect with
    ⟨now, phase, started, absent, rfl⟩ | ⟨expiry, asOf, row, phase, started, present, matched, rfl⟩
  · constructor
    · exact ⟨_, rfl, rfl, rfl⟩
    · intro row present
      simp [absent] at present
  · have same : row.requestFingerprint = some (setting.fingerprint r) := by
      simp only [IdempotencyRequest.reclaims, Bool.and_eq_true, decide_eq_true_eq] at matched
      exact matched.1
    constructor
    · exact ⟨row.reclaim r expiry, rfl, rfl, same⟩
    · intro other found
      rw [present] at found
      cases found
      exact same

/-- The call is at this point. -/
def At (r : CallId) (phase : Phase δ) (s : State δ) : Prop := (s.calls r).phase = phase

/-- A call has come to its point by a step of its own. -/
theorem arrival {guard : State δ → Event η → Prop} {r : CallId} {phase : Phase δ}
    (reached : (machine setting).Reachable guard s) (started : phase ≠ .idle)
    (now : At r phase s) : ∃ u event, (machine setting).Reachable guard u ∧ guard u event ∧
      Arrives setting u event r phase ∧ (machine setting).Path guard u s := by
  obtain ⟨origin, initial, path⟩ := reached
  have idle : ¬ At r phase origin := by
    obtain ⟨start, domain, rfl⟩ := initial
    exact started.symm
  obtain ⟨u, event, v, first, admitted, taken, before, after, rest⟩ := path.crossing idle now
  have mine : event.caller = some r := by
    by_contra other
    exact before ((phase_of_other other taken).symm.trans after)
  have arrives := arrives_of_step mine taken
  rw [after] at arrives
  exact ⟨u, event, ⟨origin, initial, first⟩, admitted, arrives,
    (Machine.Path.single event admitted taken).trans rest⟩

/-- The lease of the row, if it has one, is newer than the state `s`. -/
def NewerLease (s u : State δ) : Prop :=
  ∀ row token, u.row = some row → row.leaseToken = some token → (s.calls token).lease = none

/-- Only an insert and a conditional update put a token into the row. -/
theorem token_of_effect {later : Row} {token : CallId} (sound : Sound s)
    (found : t.row = some later) (holder : later.leaseToken = some token)
    (effect : Effect setting s event t) :
    (∃ row, s.row = some row ∧ row.leaseToken = some token) ∨ (s.calls token).lease = none := by
  cases leaves_of_effect effect found with
  | kept event later present => exact .inl ⟨later, present, holder⟩
  | created r fate now started absent =>
      cases holder
      exact .inr (sound.fresh token (by rw [started]; rfl))
  | reclaimed r fate expiry asOf row started present matched =>
      cases holder
      exact .inr (sound.fresh token (by rw [started]; rfl))
  | finalized | marked => cases holder

/-- The row is a failed one. -/
def Failed (s : State δ) : Prop := ∃ row, s.row = some row ∧ row.state = .retryableFailure

/-- A row becomes a failed one only by a `markRetryableFailure`. -/
theorem marks_of_failed (before : ¬ Failed s) (after : Failed t)
    (effect : Effect setting s event t) : event.marks.isSome = true := by
  obtain ⟨row, found, failed⟩ := after
  cases leaves_of_effect effect found with
  | kept event row present => exact absurd ⟨row, present, failed⟩ before
  | created | reclaimed | finalized => cases failed
  | marked event r old writer present => simp [writer]

/-- After a reclaim the row carries only leases that are newer than the one before it. -/
theorem newerLease_of_path {r : CallId}
    (reached : (machine setting).Reachable Machine.anything s) (reclaimed : Reclaimed setting s t r)
    (path : (machine setting).Path Machine.anything t u) : NewerLease s u := by
  have taken : (machine setting).Path Machine.anything s t :=
    .single (.reclaim r .ok) trivial reclaimed.1
  induction path with
  | refl =>
      intro row token present holder
      obtain ⟨expiry, asOf, old, started, _, _, after⟩ := row_of_reclaimed reclaimed
      rw [after] at present
      cases present
      cases holder
      exact (sound_of_reachable reached).fresh r (by rw [started]; rfl)
  | snoc event before _ next newer =>
      intro row token present holder
      have middle := reached.extend (taken.trans before)
      rcases token_of_effect (sound_of_reachable middle) present holder (effect_of_step next) with
        ⟨old, found, same⟩ | unissued
      · exact newer old token found same
      · cases issued : (s.calls token).lease with
        | none => rfl
        | some expiry =>
            have kept := lease_of_path reached issued (taken.trans before)
            simp [unissued] at kept

/-- The next reclaim finds a row that has failed or expired anew. -/
theorem lapsedSince_of_reclaimed {v : State δ} {r q : CallId}
    (reached : (machine setting).Reachable Machine.anything s) (first : Reclaimed setting s t r)
    (path : (machine setting).Path Machine.anything t u) (second : Reclaimed setting u v q) :
    ∃ expiry asOf, (u.calls q).phase = .reclaiming expiry asOf ∧ asOf ≤ u.now ∧
      LapsedSince setting s t u asOf := by
  have taken : (machine setting).Path Machine.anything s t :=
    .single (.reclaim r .ok) trivial first.1
  have sound := sound_of_reachable (reached.extend (taken.trans path))
  obtain ⟨expiry, asOf, row, started, present, matched, _⟩ := row_of_reclaimed second
  refine ⟨expiry, asOf, started, sound.timed q expiry asOf started, row, present, ?_⟩
  simp only [IdempotencyRequest.reclaims, IdempotencyRequest.reclaimable, Bool.and_eq_true,
    Bool.or_eq_true, decide_eq_true_eq, Option.any_eq_true] at matched
  obtain ⟨_, failed | ⟨working, end', stored, past⟩⟩ := matched
  · left
    have working : ¬ Failed t := by
      obtain ⟨_, _, _, _, _, _, after⟩ := row_of_reclaimed first
      rintro ⟨row, found, failed⟩
      rw [after] at found
      cases found
      cases failed
    obtain ⟨w, event, w', start, _, marked, before, after, rest⟩ :=
      path.crossing working ⟨row, present, failed⟩
    exact ⟨failed, w, event, w', start, marks_of_failed before after (effect_of_step marked),
      marked, rest⟩
  · right
    obtain ⟨token, holder⟩ := Option.isSome_iff_exists.mp
      ((sound.wellFormed row present).token.mpr working)
    exact ⟨working, token, end', holder, stored, past,
      newerLease_of_path reached first path row token present holder⟩

/-- A key stays with one request, and a lapsed row goes to one of those that race for it while no
statement opens the row to a call that has read another one. -/
theorem keyBinding (setting : Setting δ η) : KeyBinding setting (ClaimsAsRead setting) where
  kept s t row _ present path := by
    induction path with
    | refl => exact ⟨row, present, rfl⟩
    | snoc event _ admitted taken before =>
        obtain ⟨middle, found, same⟩ := before
        obtain ⟨later, found', same'⟩ := fingerprint_kept admitted found (effect_of_step taken)
        exact ⟨later, found', same'.trans same⟩
  acquired s event t r _ taken before after :=
    fingerprint_of_acquired before after (effect_of_step taken)
  replayed s r expiry existing outcome reached deciding replays := by
    obtain ⟨u, event, before, _, present, path⟩ := arrival reached (by simp) deciding
    refine ⟨?_, u, before, present, path⟩
    unfold reconcileExisting at replays
    repeat' split at replays
    all_goals simp_all
  once _ _ _ _ _ _ reached claims first other contends path :=
    not_reclaimed_of_contends reached claims first other contends path
  anew s t u v r q reached first path second := lapsedSince_of_reclaimed reached first path second
  definite s row reached present working := by
    have formed := (sound_of_reachable reached).wellFormed row present
    obtain ⟨expiry, stored⟩ := Option.isSome_iff_exists.mp (formed.expiry.mpr working)
    refine ⟨expiry, stored, fun now => ?_⟩
    simp [IdempotencyRequest.reclaimable, working, stored]

/-- Each call claims the key before its lease is over, decides on the row that it has read and marks
no failure. -/
def SwiftClaims (setting : Setting δ η) (s : State δ) : Event η → Prop
  | .create r _ | .reclaim r _ => ∀ expiry ∈ (s.calls r).phase.claimedLease setting, s.now < expiry
  | .decide q => ∀ existing ∈ (s.calls q).phase.lapsed s.now, ∀ row ∈ s.row,
      row.leaseToken = existing.leaseToken
  | .markRetryableFailure _ _ => False
  | _ => True

instance (setting : Setting δ η) (s : State δ) (event : Event η) :
    Decidable (SwiftClaims setting s event) := by
  unfold SwiftClaims
  split <;> infer_instance

/-- A lease that is not over outlives the clocks that the calls have read. -/
theorem outlives_of_lt {r : CallId} (sound : Sound s)
    (swift : ∀ expiry ∈ (s.calls r).phase.claimedLease setting, s.now < expiry) :
    Outlives setting s r := by
  intro expiry claimed q _ asOf decided
  obtain ⟨_, started⟩ := Phase.asOf_eq_some.mp decided
  exact Nat.lt_of_le_of_lt (sound.timed q _ asOf started) (swift expiry claimed)

theorem claimsAsRead_of_swift (sound : Sound s) (swift : SwiftClaims setting s event) :
    ClaimsAsRead setting s event := by
  cases event with
  | create => exact fun _ => outlives_of_lt sound swift
  | reclaim => exact fun _ _ _ _ _ => outlives_of_lt sound swift
  | decide q =>
      intro existing read row present _ other
      exact absurd (swift existing read row present) other
  | markRetryableFailure => exact swift.elim
  | _ => trivial

theorem reachable_of_swift (reached : (machine setting).Reachable (SwiftClaims setting) s) :
    (machine setting).Reachable (ClaimsAsRead setting) s := by
  refine reached.strengthen Sound (fun _ => sound_of_reachable) ?_ ?_
  · intro s initial
    exact ⟨s, initial, .refl s⟩
  · intro s event t sound _ swift taken before
    exact before.extend (.single event (claimsAsRead_of_swift sound swift) taken)

/-- Two clients race for the expired row, and one of them is granted the key. A fourth client gets
it at the end of the new lease. -/
theorem jsonSetting_races : ∃ s t u v : State Tables,
    (machine jsonSetting).Reachable (ClaimsAsRead jsonSetting) s ∧ Reclaimed jsonSetting s t 1 ∧
      (s.calls 2).phase.contends s.now = true ∧ (∀ w, ¬ Reclaimed jsonSetting t w 2) ∧
      (machine jsonSetting).Path Machine.anything t u ∧ (u.calls 2).phase.stage = 2 ∧
      Reclaimed jsonSetting u v 3 ∧ ∃ asOf, LapsedSince jsonSetting s t u asOf := by
  obtain ⟨s, reached, observed⟩ := (machine jsonSetting).reachable_of_observed
    (SwiftClaims jsonSetting)
    (fun s => (s.calls 2).phase.contends s.now &&
      decide (SwiftClaims jsonSetting s (.reclaim 1 .ok)) &&
      (step jsonSetting s (.reclaim 1 .ok)).any fun t =>
        (t.calls 1).phase.isAcquired && ((machine jsonSetting).execute Machine.anything t
          (.reclaim 2 .ok :: .tick 900000 :: asking 3)).any fun u =>
            decide ((u.calls 2).phase.stage = 2) &&
              (step jsonSetting u (.reclaim 3 .ok)).any fun v => (v.calls 3).phase.isAcquired)
    true
    ([.acquire 0, .create 0 .ok, .tick 900000] ++ asking 1 ++ asking 2) jsonStart_initial
    (by decide)
  simp only [Option.any_eq_true, Bool.and_eq_true, decide_eq_true_eq] at observed
  obtain ⟨⟨contends, swift⟩, t, taken, granted, u, ran, refused, v, taken', granted'⟩ := observed
  have claims := claimsAsRead_of_swift (sound_of_reachable reached) swift
  have path := Machine.path_of_execute _ ran
  obtain ⟨_, asOf, _, _, lapsed⟩ := (keyBinding jsonSetting).anew s t u v 1 3
    (reached.mono fun _ _ _ => trivial) ⟨taken, granted⟩ path ⟨taken', granted'⟩
  exact ⟨s, t, u, v, reachable_of_swift reached, ⟨taken, granted⟩, contends,
    fun w => (keyBinding jsonSetting).once s t t w 1 2 (reachable_of_swift reached) claims
      ⟨taken, granted⟩ (by decide) contends (.refl t), path, refused, ⟨taken', granted'⟩, asOf,
    lapsed⟩

/-- Two clients read the same expired row. The first one takes it when the lease that it asks for is
already over, so that the second one takes it as well. -/
theorem jsonSetting_bothReclaim : ¬ KeyBinding jsonSetting Machine.anything := by
  intro binding
  obtain ⟨s, reached, observed⟩ := (machine jsonSetting).reachable_of_observed Machine.anything
    (fun s => ((s.calls 2).phase.contends s.now,
      (step jsonSetting s (.reclaim 1 .ok)).map fun t => ((t.calls 1).phase.isAcquired,
        ((machine jsonSetting).execute Machine.anything t [.decide 2]).map fun u =>
          (step jsonSetting u (.reclaim 2 .ok)).map fun v => (v.calls 2).phase.isAcquired)))
    (true, some (true, some (some true)))
    ([.acquire 0, .create 0 .ok, .tick 900000] ++ asking 1 ++
      [.acquire 2, .create 2 .ok, .find 2 .ok, .tick 900000]) jsonStart_initial (by decide)
  simp only [Option.map_eq_some_iff, Prod.mk.injEq] at observed
  obtain ⟨contends, t, taken, granted, u, ran, v, taken', granted'⟩ := observed
  exact binding.once s t u v 1 2 reached trivial ⟨taken, granted⟩ (by decide) contends
    (Machine.path_of_execute _ ran) ⟨taken', granted'⟩

end PostsMedia.Idempotency
