import PostsMedia.Posts.Calls

namespace PostsMedia.Idempotency

open Posts

variable {δ η : Type} {setting : Setting δ η} {s t : State δ} {event : Event η}

/-- The call that an event advances. -/
def Event.caller : Event η → Option CallId
  | .tick _ | .environment _ | .removeExpired _ => none
  | .acquire r | .create r _ | .find r _ | .decide r | .reclaim r _ | .reject r _ | .abandon r
  | .fail r | .finalizeRejection r _ | .finalizeInTransaction r _ | .commit r _ | .act r _
  | .finalize r _ | .markRetryableFailure r _ | .crash r => some r

/-- An event moves only the call that it advances. -/
theorem phase_of_other {q : CallId} (other : event.caller ≠ some q)
    (taken : step setting s event = some t) : (t.calls q).phase = (s.calls q).phase := by
  cases event with
  | tick duration => cases taken; rfl
  | environment event =>
      obtain ⟨domain, _, rfl⟩ := Option.map_eq_some_iff.mp taken
      rfl
  | removeExpired now =>
      simp only [step, stepRemoveExpired] at taken
      repeat' split at taken
      all_goals cases taken
      all_goals rfl
  | acquire r | create r | find r | decide r | reclaim r | reject r | abandon r | fail r
  | finalizeRejection r | finalizeInTransaction r | commit r | act r | finalize r
  | markRetryableFailure r | crash r =>
      have different : q ≠ r := by simpa [Event.caller, eq_comm] using other
      simp only [step, stepAcquire, stepCreate, stepFind, stepDecide, stepReclaim, stepReject,
        stepAbandon, stepFail, stepFinalizeRejection, stepFinalizeInTransaction, stepCommit,
        stepAct, stepFinalize, stepMarkRetryableFailure, stepCrash] at taken
      repeat' split at taken
      all_goals cases taken
      all_goals simp [different]

/-- A call has not read the row yet. -/
def Phase.unread : Phase δ → Bool
  | .idle | .creating _ | .finding _ => true
  | _ => false

/-- The points that a call passes on its way to the replay of one outcome. -/
inductive Replaying (service : Service) (fingerprint : String) (outcome : IdempotentOutcome) :
    Phase δ → Prop
  | unread (phase : Phase δ) (before : phase.unread = true) :
      Replaying service fingerprint outcome phase
  | deciding (expiry : Time) (existing : Row) (finalized : existing.state = .finalized)
      (same : existing.requestFingerprint = some fingerprint)
      (stored : existing.replayed = outcome) :
      Replaying service fingerprint outcome (.deciding expiry existing)
  | replayed : Replaying service fingerprint outcome (.settled (replayResult service outcome))
  | failed : Replaying service fingerprint outcome (.settled .failed)
  | crashed : Replaying service fingerprint outcome .crashed

/-- A call that has not read a finalized row yet stays on its way to the replay. -/
theorem Replaying.step {q : CallId} {row : Row} {outcome : IdempotentOutcome}
    (present : s.row = some row) (finalized : row.state = .finalized)
    (same : row.requestFingerprint = some (setting.fingerprint q)) (stored : row.replayed = outcome)
    (taken : Idempotency.step setting s event = some t)
    (replaying : Replaying (setting.service q) (setting.fingerprint q) outcome
      (s.calls q).phase) :
    Replaying (setting.service q) (setting.fingerprint q) outcome (t.calls q).phase := by
  by_cases mine : event.caller = some q
  · cases event with
    | tick | environment | removeExpired => cases mine
    | acquire r =>
        cases mine
        simp only [Idempotency.step, stepAcquire] at taken
        split at taken <;> cases taken
        exact .unread _ (by simp [Phase.unread])
    | create r fate =>
        cases mine
        simp only [Idempotency.step, stepCreate, present] at taken
        split at taken
        · split at taken <;> cases taken
          all_goals simp_all
          · exact .unread _ rfl
          · exact .failed
        · cases taken
    | find r fate =>
        cases mine
        simp only [Idempotency.step, stepFind, present] at taken
        split at taken
        · split at taken <;> cases taken
          all_goals simp_all
          · exact .deciding _ _ finalized same stored
          · exact .failed
        · cases taken
    | decide r =>
        cases mine
        simp only [Idempotency.step, stepDecide] at taken
        split at taken
        · rename_i expiry existing started
          rw [started] at replaying
          cases replaying with
          | unread phase before => simp [Phase.unread] at before
          | deciding expiry existing settled matched kept =>
              rw [reconcileExisting_finalized existing _ _ settled matched] at taken
              cases taken
              simpa [kept] using Replaying.replayed
        · cases taken
    | crash r =>
        cases mine
        cases taken
        simpa using Replaying.crashed
    | reclaim r | reject r | abandon r | fail r | finalizeRejection r | finalizeInTransaction r
    | commit r | act r | finalize r | markRetryableFailure r =>
        cases mine
        simp only [Idempotency.step, stepReclaim, stepReject, stepAbandon, stepFail,
          stepFinalizeRejection, stepFinalizeInTransaction, stepCommit, stepAct, stepFinalize,
          stepMarkRetryableFailure] at taken
        generalize (s.calls q).phase = phase at replaying taken
        cases replaying with
        | unread phase before => cases phase <;> simp [Phase.unread] at before taken
        | deciding | replayed | failed | crashed => simp at taken
  · rw [phase_of_other mine taken]
    exact replaying

/-- The row still stores the outcome of a finalized row. -/
structure SameOutcome (row kept : Row) : Prop where
  finalized : kept.state = .finalized
  responseStatus : kept.responseStatus = row.responseStatus
  responseBody : kept.responseBody = row.responseBody
  targetResourceId : kept.targetResourceId = row.targetResourceId

/-- A finalized outcome stays in the row, and every later call with its fingerprint replays it. -/
def Permanent (setting : Setting δ η) (guard : State δ → Event η → Prop) : Prop :=
  ∀ s t row, (machine setting).Reachable guard s → s.row = some row → row.state = .finalized →
    (machine setting).Path guard s t →
    (∃ kept, t.row = some kept ∧ SameOutcome row kept) ∧
      ∀ q, (s.calls q).phase.unread = true →
        row.requestFingerprint = some (setting.fingerprint q) →
        Replaying (setting.service q) (setting.fingerprint q) row.replayed (t.calls q).phase

/-- A finalized row does not change along fenced runs that keep it. -/
theorem row_of_finalized {row : Row} (reached : (machine setting).Reachable FencedKeeping s)
    (present : s.row = some row) (finalized : row.state = .finalized)
    (path : (machine setting).Path FencedKeeping s t) : t.row = some row := by
  induction path with
  | refl => exact present
  | snoc event before admitted taken kept =>
      have reached := reached.extend before
      have sound := sound_of_reachable reached
      have anchored := anchored_of_reachable (fun _ _ fenced => findsRow_of_fenced fenced.1) reached
      have owned := owned_of_reachable (fun _ _ fenced => fenced.1) reached
      exact (finalized_frozen sound anchored owned admitted (effect_of_step taken) kept finalized).1

/-- A finalized outcome is permanent while every `finalize` and every `markRetryableFailure` runs
under the lease of its own call. -/
theorem permanent_of_fenced (setting : Setting δ η) : Permanent setting FencedKeeping := by
  intro s t row reached present finalized path
  constructor
  · exact ⟨row, row_of_finalized reached present finalized path, finalized, rfl, rfl, rfl⟩
  · intro q unread same
    induction path with
    | refl => exact .unread _ unread
    | snoc event before admitted taken replaying =>
        have kept := row_of_finalized reached present finalized before
        exact replaying.step kept finalized same rfl taken

/-- One client creates its post, and a later one with the same key gets the stored response. -/
theorem jsonSetting_replays : ∃ s t row,
    s.row = some row ∧ row.state = .finalized ∧ (machine jsonSetting).Path FencedKeeping s t ∧
      (∃ kept, t.row = some kept ∧ SameOutcome row kept) ∧ (t.calls 1).phase.stage = 2 ∧
      Replaying .createPost "fingerprint" row.replayed (t.calls 1).phase := by
  obtain ⟨s, t, reached, path, before, after⟩ := (machine jsonSetting).path_of_observed
    FencedKeeping
    (fun s => (s.row.map fun row => (row.state, row.requestFingerprint), (s.calls 1).phase.unread))
    (some (.finalized, some "fingerprint"), true) (fun t => (t.calls 1).phase.stage) 2 loneCommit
    [.acquire 1, .create 1 .ok, .find 1 .ok, .decide 1] jsonStart_initial (by decide)
  simp only [Prod.mk.injEq, Option.map_eq_some_iff] at before
  obtain ⟨⟨row, present, finalized, same⟩, unread⟩ := before
  obtain ⟨kept, replaying⟩ :=
    permanent_of_fenced jsonSetting s t row reached present finalized path
  exact ⟨s, t, row, present, finalized, path, kept, after, replaying 1 unread same⟩

/-- The late failure of the first client takes the finalized outcome away. -/
theorem jsonSetting_not_permanent : ¬ Permanent jsonSetting KeepsRow := by
  intro permanent
  obtain ⟨s, t, reached, path, before, after⟩ := (machine jsonSetting).path_of_observed
    KeepsRow (fun s => s.row.map (·.state)) (some .finalized) (fun t => t.row.map (·.state))
    (some .retryableFailure) reclaimedCommit [.fail 0, .markRetryableFailure 0 .ok]
    jsonStart_initial (by decide)
  obtain ⟨row, present, finalized⟩ := Option.map_eq_some_iff.mp before
  obtain ⟨⟨kept, found, same⟩, _⟩ := permanent s t row reached present finalized path
  rw [found, Option.map_some, same.finalized] at after
  cases after

end PostsMedia.Idempotency
