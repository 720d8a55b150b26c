import PostsMedia.Idempotency.Service

namespace PostsMedia.Idempotency

variable {δ η : Type}

/-- The call has a domain transaction open. -/
def Phase.inTransaction : Phase δ → Bool
  | .committing .. => true
  | _ => false

/-- A call first asks for the lease, then works under it, and last only reports its outcome. -/
def Phase.stage : Phase δ → Nat
  | .idle | .creating _ | .finding _ | .deciding .. | .reclaiming .. => 0
  | .acquired | .committing .. => 1
  | .rejecting _ | .finalizing _ | .marking | .settled _ | .crashed => 2

theorem Phase.stage_le (phase : Phase δ) : phase.stage ≤ 2 := by
  cases phase <;> simp [stage]

/-- The call whose `finalize` statement takes effect in this event. -/
def Event.finalizes : Event η → Option CallId
  | .finalizeRejection r fate | .finalize r fate => if fate.tookEffect then some r else none
  | .finalizeInTransaction r .ok => some r
  | _ => none

/-- The call whose `markRetryableFailure` statement takes effect in this event. -/
def Event.marks : Event η → Option CallId
  | .markRetryableFailure r fate => if fate.tookEffect then some r else none
  | _ => none

/-- Everything that one event can do to the shared state. -/
inductive Effect (setting : Setting δ η) (s : State δ) : Event η → State δ → Prop
  | tick (duration : Time) : Effect setting s (.tick duration) { s with now := s.now + duration }
  | environment (event : η) (domain : δ)
      (stepped : setting.environment event s.domain = some domain) :
      Effect setting s (.environment event) { s with domain := domain }
  | spare (now : Time) (kept : ∀ row, s.row = some row → now < row.expiresAt) :
      Effect setting s (.removeExpired now) s
  | remove (now : Time) (row : Row) (present : s.row = some row) (expired : row.expiresAt ≤ now)
      (past : now ≤ s.now) (unlocked : s.lock = none) :
      Effect setting s (.removeExpired now) { s with row := none }
  | advance (event : Event η) (r : CallId) (phase : Phase δ)
      (before : (s.calls r).phase.inTransaction = false) (after : phase.inTransaction = false)
      (forward : (s.calls r).phase.stage ≤ phase.stage) (resting : phase.stage ≠ 1)
      (timed : ∀ expiry asOf, phase = .reclaiming expiry asOf → asOf = s.now) :
      Effect setting s event (s.move r phase)
  | create (r : CallId) (fate : Fate) (now : Time) (phase : Phase δ)
      (started : (s.calls r).phase = .creating now) (absent : s.row = none)
      (next : phase = .acquired ∨ phase = .settled .failed) :
      Effect setting s (.create r fate)
        ((s.lease r (IdempotencyRequest.create (setting.service r).operation
          (setting.fingerprint r) r (now + setting.leaseSeconds * 1000)
          (now + setting.ttlHours * 3600000)) (now + setting.leaseSeconds * 1000)).move r phase)
  | reclaim (r : CallId) (fate : Fate) (expiry asOf : Time) (row : Row) (phase : Phase δ)
      (started : (s.calls r).phase = .reclaiming expiry asOf) (unlocked : s.lock = none)
      (present : s.row = some row) (matched : row.reclaims (setting.fingerprint r) asOf = true)
      (next : phase = .acquired ∨ phase = .settled .failed) :
      Effect setting s (.reclaim r fate)
        ((s.lease r (row.reclaim r expiry) expiry).move r phase)
  | finalizeAlone (event : Event η) (r : CallId) (outcome : IdempotentOutcome) (phase : Phase δ)
      (writer : event.finalizes = some r) (unlocked : s.lock = none)
      (before : (s.calls r).phase.stage = 2) (calm : (s.calls r).phase.inTransaction = false)
      (after : phase.stage = 2) (next : phase.inTransaction = false) :
      Effect setting s event ((s.release r (·.finalize outcome s.now)).move r phase)
  | lock (r : CallId) (write : δ → δ) (outcome : IdempotentOutcome)
      (started : (s.calls r).phase = .acquired) (unlocked : s.lock = none)
      (joins : (setting.service r).joins = true)
      (acted : setting.action r s.domain = some (write, outcome)) :
      Effect setting s (.finalizeInTransaction r .ok)
        ({ s with lock := s.row.map fun _ => r }.move r (.committing write outcome s.now))
  | commit (r : CallId) (fate : Fate) (write : δ → δ) (outcome : IdempotentOutcome)
      (finalizedAt : Time) (phase : Phase δ)
      (started : (s.calls r).phase = .committing write outcome finalizedAt)
      (after : phase.stage = 2) (next : phase.inTransaction = false) :
      Effect setting s (.commit r fate)
        ((((if s.lock = some r then s.release r (·.finalize outcome finalizedAt) else s).apply r
          write).unlock r).move r phase)
  | rollback (event : Event η) (r : CallId) (phase : Phase δ)
      (after : phase.stage = 2) (next : phase.inTransaction = false) :
      Effect setting s event ((s.unlock r).move r phase)
  | act (r : CallId) (fate : Fate) (write : δ → δ) (outcome : IdempotentOutcome) (phase : Phase δ)
      (started : (s.calls r).phase = .acquired) (wrapped : (setting.service r).joins = false)
      (acted : setting.action r s.domain = some (write, outcome))
      (after : phase.stage = 2) (next : phase.inTransaction = false) :
      Effect setting s (.act r fate) ((s.apply r write).move r phase)
  | mark (event : Event η) (r : CallId) (writer : event.marks = some r) (unlocked : s.lock = none)
      (started : (s.calls r).phase = .marking) :
      Effect setting s event
        ((s.release r (·.markRetryableFailure)).move r (.settled .failed))

section Inversion

variable {setting : Setting δ η} {s t : State δ} {r : CallId} {fate : Fate}

/-- A call that has no lease yet may move to any point that needs none. -/
theorem effect_early {event : Event η} {phase : Phase δ}
    (early : (s.calls r).phase.stage = 0 ∧ (s.calls r).phase.inTransaction = false)
    (after : phase.inTransaction = false ∧ phase.stage ≠ 1)
    (timed : ∀ expiry asOf, phase = .reclaiming expiry asOf → asOf = s.now) :
    Effect setting s event (s.move r phase) :=
  .advance event r phase early.2 after.1 (by omega) after.2 timed

/-- A call outside a transaction may always move on to its report. -/
theorem effect_late {event : Event η} {phase : Phase δ}
    (calm : (s.calls r).phase.inTransaction = false)
    (late : phase.stage = 2 ∧ phase.inTransaction = false)
    (timed : ∀ expiry asOf, phase = .reclaiming expiry asOf → asOf = s.now) :
    Effect setting s event (s.move r phase) :=
  .advance event r phase calm late.2 (late.1 ▸ Phase.stage_le _) (by omega) timed

theorem effect_acquire (taken : stepAcquire s r = some t) : Effect setting s (.acquire r) t := by
  unfold stepAcquire at taken
  split at taken <;> cases taken
  rename_i started
  exact effect_early (by rw [started]; exact ⟨rfl, rfl⟩) ⟨rfl, by simp [Phase.stage]⟩ (by simp)

theorem effect_create (taken : stepCreate setting s r fate = some t) :
    Effect setting s (.create r fate) t := by
  unfold stepCreate at taken
  split at taken
  · rename_i now started
    dsimp only at taken
    split at taken <;> cases taken
    · exact .create r _ now _ started ‹_› (.inl rfl)
    · exact .create r _ now _ started ‹_› (.inr rfl)
    all_goals
      exact effect_early (by rw [started]; exact ⟨rfl, rfl⟩) ⟨rfl, by simp [Phase.stage]⟩ (by simp)
  · cases taken

theorem effect_find (taken : stepFind s r fate = some t) : Effect setting s (.find r fate) t := by
  unfold stepFind at taken
  split at taken
  · rename_i expiry started
    split at taken <;> cases taken
    all_goals
      exact effect_early (by rw [started]; exact ⟨rfl, rfl⟩) ⟨rfl, by simp [Phase.stage]⟩ (by simp)
  · cases taken

theorem effect_decide (taken : stepDecide setting s r = some t) :
    Effect setting s (.decide r) t := by
  unfold stepDecide at taken
  split at taken
  · rename_i expiry existing started
    split at taken <;> cases taken
    all_goals
      refine effect_early (by rw [started]; exact ⟨rfl, rfl⟩) ⟨rfl, by simp [Phase.stage]⟩ ?_
    all_goals rintro _ _ same
    all_goals cases same
    rfl
  · cases taken

theorem effect_reclaim (taken : stepReclaim setting s r fate = some t) :
    Effect setting s (.reclaim r fate) t := by
  unfold stepReclaim at taken
  split at taken
  · rename_i started unlocked
    cases taken
    exact effect_early (by rw [started]; exact ⟨rfl, rfl⟩) ⟨rfl, by simp [Phase.stage]⟩ (by simp)
  · rename_i expiry asOf started unlocked _
    split at taken
    · rename_i row found
      cases taken
      obtain ⟨present, matched⟩ := Option.filter_eq_some_iff.mp found
      refine .reclaim r _ expiry asOf row _ started unlocked present matched ?_
      split
      · exact .inl rfl
      · exact .inr rfl
    · cases taken
      exact effect_early (by rw [started]; exact ⟨rfl, rfl⟩) ⟨rfl, by simp [Phase.stage]⟩ (by simp)
  · cases taken

theorem effect_reject {error : DomainError} (taken : stepReject setting s r error = some t) :
    Effect setting s (.reject r error) t := by
  unfold stepReject at taken
  split at taken <;> cases taken
  rename_i started _
  exact effect_late (by rw [started]; rfl) ⟨rfl, rfl⟩ (by simp)

theorem effect_abandon (taken : stepAbandon setting s r = some t) :
    Effect setting s (.abandon r) t := by
  unfold stepAbandon at taken
  split at taken <;> cases taken
  rename_i started _
  exact effect_late (by rw [started]; rfl) ⟨rfl, rfl⟩ (by simp)

theorem effect_fail (taken : stepFail s r = some t) : Effect setting s (.fail r) t := by
  unfold stepFail at taken
  split at taken <;> cases taken
  rename_i started
  exact effect_late (by rw [started]; rfl) ⟨rfl, rfl⟩ (by simp)

theorem effect_finalizeRejection (taken : stepFinalizeRejection s r fate = some t) :
    Effect setting s (.finalizeRejection r fate) t := by
  unfold stepFinalizeRejection at taken
  split at taken
  · rename_i error started unlocked
    have calm : (s.calls r).phase.inTransaction = false := by rw [started]; rfl
    have before : (s.calls r).phase.stage = 2 := by rw [started]; rfl
    dsimp only at taken
    split at taken <;> cases taken
    · exact .finalizeAlone _ r _ _ rfl unlocked before calm rfl rfl
    · exact .finalizeAlone _ r _ _ rfl unlocked before calm rfl rfl
    · exact effect_late calm ⟨rfl, rfl⟩ (by simp)
  · cases taken

theorem effect_finalizeInTransaction (taken : stepFinalizeInTransaction setting s r fate = some t) :
    Effect setting s (.finalizeInTransaction r fate) t := by
  unfold stepFinalizeInTransaction at taken
  split at taken
  · rename_i started joins unlocked
    split at taken <;> cases taken
    · exact .lock r _ _ started unlocked joins ‹_›
    · exact effect_late (by rw [started]; rfl) ⟨rfl, rfl⟩ (by simp)
  · cases taken

theorem effect_commit (taken : stepCommit s r fate = some t) :
    Effect setting s (.commit r fate) t := by
  unfold stepCommit at taken
  split at taken
  · rename_i write outcome finalizedAt started
    dsimp only at taken
    split at taken <;> cases taken
    · exact .commit r _ write outcome finalizedAt _ started rfl rfl
    · exact .commit r _ write outcome finalizedAt _ started rfl rfl
    · exact .rollback _ r _ rfl rfl
  · cases taken

theorem effect_act (taken : stepAct setting s r fate = some t) :
    Effect setting s (.act r fate) t := by
  unfold stepAct at taken
  split at taken
  · rename_i started wrapped
    split at taken <;> cases taken
    · exact .act r _ _ _ _ started wrapped ‹_› rfl rfl
    · exact .act r _ _ _ _ started wrapped ‹_› rfl rfl
    · exact effect_late (by rw [started]; rfl) ⟨rfl, rfl⟩ (by simp)
  · cases taken

theorem effect_finalize (taken : stepFinalize s r fate = some t) :
    Effect setting s (.finalize r fate) t := by
  unfold stepFinalize at taken
  split at taken
  · rename_i outcome started unlocked
    have calm : (s.calls r).phase.inTransaction = false := by rw [started]; rfl
    have before : (s.calls r).phase.stage = 2 := by rw [started]; rfl
    split at taken <;> cases taken
    · exact .finalizeAlone _ r outcome _ rfl unlocked before calm rfl rfl
    · exact .finalizeAlone _ r outcome _ rfl unlocked before calm rfl rfl
    · exact effect_late calm ⟨rfl, rfl⟩ (by simp)
  · cases taken

theorem effect_markRetryableFailure (taken : stepMarkRetryableFailure s r fate = some t) :
    Effect setting s (.markRetryableFailure r fate) t := by
  unfold stepMarkRetryableFailure at taken
  split at taken
  · rename_i started unlocked
    split at taken <;> cases taken
    · rename_i took
      exact .mark _ r (by simp [Event.marks, took]) unlocked started
    · exact effect_late (by rw [started]; rfl) ⟨rfl, rfl⟩ (by simp)
  · cases taken

theorem effect_removeExpired {now : Time} (taken : stepRemoveExpired s now = some t) :
    Effect setting s (.removeExpired now) t := by
  unfold stepRemoveExpired at taken
  split at taken
  · rename_i past
    split at taken <;> cases taken
    · rename_i row found unlocked
      obtain ⟨present, expired⟩ := Option.filter_eq_some_iff.mp found
      exact .remove now row present (by simpa using expired) past unlocked
    · rename_i found
      refine .spare now fun row present => ?_
      rw [present] at found
      simpa using found
  · cases taken

/-- Every step of the machine has one of the listed effects. -/
theorem effect_of_step {event : Event η} (taken : step setting s event = some t) :
    Effect setting s event t := by
  cases event with
  | tick duration => cases taken; exact .tick duration
  | environment event =>
      obtain ⟨domain, stepped, rfl⟩ := Option.map_eq_some_iff.mp taken
      exact .environment event domain stepped
  | removeExpired now => exact effect_removeExpired taken
  | acquire r => exact effect_acquire taken
  | create r fate => exact effect_create taken
  | find r fate => exact effect_find taken
  | decide r => exact effect_decide taken
  | reclaim r fate => exact effect_reclaim taken
  | reject r error => exact effect_reject taken
  | abandon r => exact effect_abandon taken
  | fail r => exact effect_fail taken
  | finalizeRejection r fate => exact effect_finalizeRejection taken
  | finalizeInTransaction r fate => exact effect_finalizeInTransaction taken
  | commit r fate => exact effect_commit taken
  | act r fate => exact effect_act taken
  | finalize r fate => exact effect_finalize taken
  | markRetryableFailure r fate => exact effect_markRetryableFailure taken
  | crash r => cases taken; exact .rollback _ r _ rfl rfl

end Inversion

end PostsMedia.Idempotency
