import PostsMedia.Idempotency.Soundness

namespace PostsMedia.Idempotency

variable {δ η : Type} {setting : Setting δ η} {s t : State δ} {event : Event η}

/-- The cleanup leaves the row of this key alone. -/
def KeepsRow (s : State δ) : Event η → Prop
  | .removeExpired now => ∀ row ∈ s.row, now < row.expiresAt
  | _ => True

/-- Each `markRetryableFailure` runs while the row still carries the lease of its own call. -/
def MarksFenced (s : State δ) (event : Event η) : Prop := ∀ r ∈ event.marks, s.holds r

/-- Each `finalize` and each `markRetryableFailure` runs while the row still carries the lease of
its own call. -/
def Fenced (s : State δ) (event : Event η) : Prop :=
  (∀ r ∈ event.finalizes, s.holds r) ∧ MarksFenced s event

/-- Each `finalize` inside a domain transaction finds the row of its key. -/
def FindsRow (s : State δ) : Event η → Prop
  | .finalizeInTransaction _ .ok => s.row.isSome = true
  | _ => True

/-- The fenced runs in which the cleanup keeps the row. -/
def FencedKeeping (s : State δ) (event : Event η) : Prop := Fenced s event ∧ KeepsRow s event

instance (s : State δ) (event : Event η) : Decidable (KeepsRow s event) := by
  rcases event <;> unfold KeepsRow <;> infer_instance

instance (s : State δ) (event : Event η) : Decidable (MarksFenced s event) := by
  unfold MarksFenced; infer_instance

instance (s : State δ) (event : Event η) : Decidable (FencedKeeping s event) := by
  unfold FencedKeeping Fenced; infer_instance

/-- A call that holds the lease finds an in-progress row. -/
theorem Sound.holds_inProgress (sound : Sound s) {r : CallId} (held : s.holds r) :
    ∃ row, s.row = some row ∧ row.leaseToken = some r ∧ row.state = .inProgress := by
  obtain ⟨row, present, token⟩ := Option.bind_eq_some_iff.mp held
  exact ⟨row, present, token, (sound.wellFormed row present).token.mp (by simp [token])⟩

/-- Nobody holds the lease of a finalized row. -/
theorem Sound.finalized_unheld (sound : Sound s) {row : Row} (present : s.row = some row)
    (finalized : row.state = .finalized) (r : CallId) : ¬ s.holds r := by
  intro held
  obtain ⟨other, found, _, open'⟩ := sound.holds_inProgress held
  rw [present] at found
  cases found
  simp [finalized] at open'

/-- A fenced `finalize` inside a transaction finds the row. -/
theorem findsRow_of_fenced (fenced : Fenced s event) : FindsRow s event := by
  unfold FindsRow
  split
  · rename_i r
    obtain ⟨row, present, _⟩ := Option.bind_eq_some_iff.mp (fenced.1 r rfl)
    simp [present]
  · trivial

/-- Every open transaction owns the row lock. -/
def Anchored (s : State δ) : Prop :=
  ∀ r, (s.calls r).phase.inTransaction = true → s.lock = some r

/-- A transaction that is open after another call has moved was open before. -/
theorem State.inTransaction_of_move {q r : CallId} {phase : Phase δ}
    (outside : phase.inTransaction = false)
    (inside : ((s.move r phase).calls q).phase.inTransaction = true) :
    q ≠ r ∧ (s.calls q).phase.inTransaction = true := by
  rw [State.move_phase] at inside
  split at inside
  · simp [outside] at inside
  · exact ⟨‹_›, inside⟩

/-- A granted or failed call has no transaction open. -/
theorem Phase.outside_of_granted {phase : Phase δ}
    (next : phase = .acquired ∨ phase = .settled .failed) : phase.inTransaction = false := by
  rcases next with rfl | rfl <;> rfl

/-- A transaction owns the row lock from a `finalize` that finds the row up to its end. -/
theorem Anchored.effect (anchored : Anchored s) (finds : FindsRow s event)
    (effect : Effect setting s event t) : Anchored t := by
  intro q inside
  cases effect with
  | tick | environment | spare => exact anchored q inside
  | remove now row present expired past unlocked => exact anchored q inside
  | advance event r phase before after forward resting timed =>
      exact anchored q (State.inTransaction_of_move after inside).2
  | create r fate now phase started absent next =>
      have before := (State.inTransaction_of_move (Phase.outside_of_granted next) inside).2
      exact anchored q (by simpa using before)
  | reclaim r fate expiry asOf row phase started unlocked present matched next =>
      have before := (State.inTransaction_of_move (Phase.outside_of_granted next) inside).2
      exact anchored q (by simpa using before)
  | finalizeAlone event r outcome phase writer unlocked before calm after next =>
      have before := (State.inTransaction_of_move next inside).2
      exact anchored q (by simpa using before)
  | lock r write outcome started unlocked joins acted =>
      rw [State.move_phase] at inside
      split at inside
      · rename_i same
        obtain ⟨row, present⟩ := Option.isSome_iff_exists.mp finds
        simp [same, present]
      · have owner := anchored q inside
        simp [unlocked] at owner
  | commit r fate write outcome finalizedAt phase started after next =>
      obtain ⟨different, before⟩ := State.inTransaction_of_move next inside
      have owner := anchored q (by split at before <;> simpa using before)
      have other := anchored r (by rw [started]; rfl)
      rw [owner] at other
      exact absurd (Option.some.inj other) different
  | rollback event r phase after next =>
      obtain ⟨different, before⟩ := State.inTransaction_of_move next inside
      exact (State.unlock_lock_eq_some s r q).mpr ⟨anchored q before, different⟩
  | act r fate write outcome phase started wrapped acted after next =>
      exact anchored q (State.inTransaction_of_move next inside).2
  | mark event r writer unlocked started =>
      have before := (State.inTransaction_of_move rfl inside).2
      exact anchored q (by simpa using before)

/-- Every open transaction owns the lock when each `finalize` inside a transaction finds the row. -/
theorem anchored_of_reachable {guard : State δ → Event η → Prop}
    (finds : ∀ s event, guard s event → FindsRow s event)
    (reached : (machine setting).Reachable guard s) : Anchored s := by
  refine reached.invariant ?_ ?_
  · rintro s ⟨now, domain, rfl⟩ r inside
    simp [State.fresh, Phase.inTransaction] at inside
  · intro s event t admitted taken anchored
    exact anchored.effect (finds s event admitted) (effect_of_step taken)

/-- The owner of the row lock holds the lease. -/
def Owned (s : State δ) : Prop := ∀ r, s.lock = some r → s.holds r

/-- Every fenced effect leaves the lock with the holder of the lease. -/
theorem Owned.effect (sound : Sound s) (owned : Owned s) (fenced : Fenced s event)
    (effect : Effect setting s event t) : Owned t := by
  intro q owner
  cases effect with
  | tick | environment | spare | advance => exact owned q owner
  | remove now row present expired past unlocked =>
      exact absurd owner (by simp [unlocked])
  | create r fate now phase started absent next =>
      simp [sound.unlocked_of_absent absent] at owner
  | reclaim r fate expiry asOf row phase started unlocked present matched next =>
      simp [unlocked] at owner
  | finalizeAlone event r outcome phase writer unlocked before calm after next =>
      simp [unlocked] at owner
  | lock r write outcome started unlocked joins acted =>
      simp only [State.move_lock, Option.map_eq_some_iff] at owner
      obtain ⟨row, present, rfl⟩ := owner
      exact fenced.1 r rfl
  | commit r fate write outcome finalizedAt phase started after next =>
      obtain ⟨held, different⟩ := (State.unlock_lock_eq_some _ r q).mp owner
      split at held
      · rename_i mine
        simp only [State.apply_lock, State.release_lock, mine, Option.some.injEq] at held
        exact absurd held.symm different
      · rename_i other
        rw [if_neg other]
        exact owned q held
  | rollback event r phase after next =>
      exact owned q (State.unlock_lock_eq_some s r q |>.mp owner).1
  | act r fate write outcome phase started wrapped acted after next => exact owned q owner
  | mark event r writer unlocked started => simp [unlocked] at owner

/-- In fenced runs the lock stays with the holder of the lease. -/
theorem owned_of_reachable {guard : State δ → Event η → Prop}
    (fences : ∀ s event, guard s event → Fenced s event)
    (reached : (machine setting).Reachable guard s) : Owned s := by
  refine reached.strengthen Sound (fun _ => sound_of_reachable) ?_ ?_
  · rintro s ⟨now, domain, rfl⟩ r owner
    simp [State.fresh] at owner
  · intro s event t sound _ admitted taken owned
    exact owned.effect sound (fences s event admitted) (effect_of_step taken)

/-- A fenced effect that keeps the row cannot change a finalized row or commit again. -/
theorem finalized_frozen (sound : Sound s) (anchored : Anchored s) (owned : Owned s)
    (fenced : FencedKeeping s event) (effect : Effect setting s event t) {row : Row}
    (present : s.row = some row) (finalized : row.state = .finalized) :
    t.row = some row ∧ (t.committed = s.committed ∨ ∃ r, (setting.service r).joins = false) := by
  have unheld := sound.finalized_unheld present finalized
  cases effect with
  | tick | environment | spare | advance => exact ⟨present, .inl rfl⟩
  | remove now old found expired past unlocked =>
      have kept : now < old.expiresAt := fenced.2 old found
      exact absurd expired (Nat.not_le_of_lt kept)
  | create r fate now phase started absent next => simp [present] at absent
  | reclaim r fate expiry asOf old phase started unlocked found matched next =>
      rw [present] at found
      cases found
      simp [row.not_reclaims_of_finalized _ _ finalized] at matched
  | finalizeAlone event r outcome phase writer unlocked before calm after next =>
      exact absurd (fenced.1.1 r writer) (unheld r)
  | lock r write outcome started unlocked joins acted => exact absurd (fenced.1.1 r rfl) (unheld r)
  | commit r fate write outcome finalizedAt phase started after next =>
      have owner := anchored r (by rw [started]; rfl)
      exact absurd (owned r owner) (unheld r)
  | rollback event r phase after next => exact ⟨present, .inl rfl⟩
  | act r fate write outcome phase started wrapped acted after next =>
      exact ⟨present, .inr ⟨r, wrapped⟩⟩
  | mark event r writer unlocked started => exact absurd (fenced.1.2 r writer) (unheld r)

/-- No call has a transaction open. -/
def Calm (s : State δ) : Prop := ∀ r, (s.calls r).phase.inTransaction = false

/-- A call that moves outside a transaction leaves the others calm. -/
theorem Calm.move (calm : Calm s) (r : CallId) {phase : Phase δ}
    (outside : phase.inTransaction = false) : Calm (s.move r phase) := by
  intro q
  rw [State.move_phase]
  split
  · exact outside
  · exact calm q

/-- A wrapped action never runs inside a transaction of its key. -/
theorem calm_of_reachable {guard : State δ → Event η → Prop}
    (wrapped : ∀ r, (setting.service r).joins = false)
    (reached : (machine setting).Reachable guard s) : Calm s := by
  refine reached.invariant ?_ ?_
  · rintro s ⟨now, domain, rfl⟩ r
    rfl
  · intro s event t _ taken calm
    cases effect_of_step taken with
    | tick | environment | spare | remove => exact calm
    | lock r write outcome started unlocked joins acted => simp [wrapped r] at joins
    | create r fate now phase started absent next =>
        apply Calm.move _ r (Phase.outside_of_granted next)
        exact fun q => by simpa using calm q
    | reclaim r fate expiry asOf row phase started unlocked present matched next =>
        apply Calm.move _ r (Phase.outside_of_granted next)
        exact fun q => by simpa using calm q
    | advance event r phase before after forward resting timed => exact calm.move r after
    | finalizeAlone event r outcome phase writer unlocked before calm' after next =>
        apply Calm.move _ r next
        exact fun q => by simpa using calm q
    | commit r fate write outcome finalizedAt phase started after next =>
        have outside := calm r
        rw [started] at outside
        cases outside
    | rollback event r phase after next => exact Calm.move calm r next
    | act r fate write outcome phase started wrapped' acted after next =>
        exact Calm.move calm r next
    | mark event r writer unlocked started =>
        apply Calm.move _ r rfl
        exact fun q => by simpa using calm q

end PostsMedia.Idempotency
