import PostsMedia.Idempotency.Effects

namespace PostsMedia.Idempotency

variable {δ η : Type} {setting : Setting δ η} {s t : State δ} {event : Event η}

/-- The facts that hold in every run, whatever fails and whoever outlives its lease. -/
structure Sound (s : State δ) : Prop where
  wellFormed : ∀ row, s.row = some row → row.WellFormed
  locked : ∀ r, s.lock = some r → (s.calls r).phase.inTransaction = true ∧ s.row.isSome = true
  fresh : ∀ r, (s.calls r).phase.stage = 0 → (s.calls r).lease = none
  timed : ∀ r expiry asOf, (s.calls r).phase = .reclaiming expiry asOf → asOf ≤ s.now
  acted : ∀ r, r ∈ s.committed → (s.calls r).phase.stage = 2
  once : s.committed.Nodup

/-- An unused key is sound. -/
theorem sound_fresh (now : Time) (domain : δ) : Sound (State.fresh now domain) where
  wellFormed := by simp [State.fresh]
  locked := by simp [State.fresh]
  fresh := by simp [State.fresh]
  timed := by simp [State.fresh]
  acted := by simp [State.fresh]
  once := by simp [State.fresh]

/-- Nobody locks an absent row. -/
theorem Sound.unlocked_of_absent (sound : Sound s) (absent : s.row = none) : s.lock = none := by
  cases owner : s.lock with
  | none => rfl
  | some r =>
      have present := (sound.locked r owner).2
      simp [absent] at present

/-- A call outside a transaction does not own the row lock. -/
theorem Sound.not_owner (sound : Sound s) {r : CallId}
    (calm : (s.calls r).phase.inTransaction = false) : s.lock ≠ some r := by
  intro owner
  have inside := (sound.locked r owner).1
  simp [calm] at inside

/-- A change that leaves the row, the lock and the ghost fields alone keeps soundness. -/
theorem Sound.advance (sound : Sound s) {r : CallId} {phase : Phase δ}
    (before : (s.calls r).phase.inTransaction = false)
    (forward : (s.calls r).phase.stage ≤ phase.stage)
    (timed : ∀ expiry asOf, phase = .reclaiming expiry asOf → asOf = s.now) :
    Sound (s.move r phase) where
  wellFormed := sound.wellFormed
  locked q owner := by
    have different : q ≠ r := by
      rintro rfl
      exact sound.not_owner before owner
    simpa [different] using sound.locked q owner
  fresh q early := by
    rw [State.move_lease]
    apply sound.fresh
    rw [State.move_phase] at early
    split at early
    · rename_i same
      subst same
      omega
    · exact early
  timed q expiry asOf reclaiming := by
    rw [State.move_phase] at reclaiming
    split at reclaiming
    · exact Nat.le_of_eq (timed expiry asOf reclaiming)
    · exact sound.timed q expiry asOf reclaiming
  acted q member := by
    have late := sound.acted q member
    rw [State.move_phase]
    split
    · rename_i same
      subst same
      have := phase.stage_le
      omega
    · exact late
  once := sound.once

/-- A call that leaves the first stage may take any phase outside the reclaim. -/
theorem Sound.later (sound : Sound s) {r : CallId} {phase : Phase δ}
    (calm : ∀ q, s.lock = some q → q ≠ r) (forward : (s.calls r).phase.stage ≤ phase.stage)
    (late : phase.stage ≠ 0) : Sound (s.move r phase) where
  wellFormed := sound.wellFormed
  locked q owner := by
    have different := calm q owner
    simpa [different] using sound.locked q owner
  fresh q early := by
    rw [State.move_lease]
    apply sound.fresh
    rw [State.move_phase] at early
    split at early
    · exact absurd early late
    · exact early
  timed q expiry asOf reclaiming := by
    rw [State.move_phase] at reclaiming
    split at reclaiming
    · subst reclaiming
      exact absurd rfl late
    · exact sound.timed q expiry asOf reclaiming
  acted q member := by
    have stage := sound.acted q member
    rw [State.move_phase]
    split
    · rename_i same
      subst same
      have := phase.stage_le
      omega
    · exact stage
  once := sound.once

/-- A new lease in the row keeps soundness together with the phase that follows it. -/
theorem Sound.lease (sound : Sound s) {r : CallId} {row : Row} {expiry : Time} {phase : Phase δ}
    (formed : row.WellFormed) (unlocked : s.lock = none) (early : (s.calls r).phase.stage = 0)
    (late : phase.stage ≠ 0) : Sound ((s.lease r row expiry).move r phase) where
  wellFormed other present := by
    simp only [State.move_row, State.lease_row, Option.some.injEq] at present
    exact present ▸ formed
  locked q owner := by simp [unlocked] at owner
  fresh q stage := by
    rw [State.move_phase] at stage
    split at stage
    · exact absurd stage late
    · rename_i different
      simp only [State.lease_phase] at stage
      simpa [different] using sound.fresh q stage
  timed q expiry asOf reclaiming := by
    rw [State.move_phase] at reclaiming
    split at reclaiming
    · subst reclaiming
      exact absurd rfl late
    · exact sound.timed q expiry asOf (by simpa using reclaiming)
  acted q member := by
    have stage := sound.acted q member
    have different : q ≠ r := by
      rintro rfl
      omega
    simpa [different] using stage
  once := sound.once

/-- A write that ends a lease keeps soundness. -/
theorem Sound.release (sound : Sound s) {r : CallId} {change : Row → Row}
    (formed : ∀ row, s.row = some row → (change row).WellFormed) : Sound (s.release r change) where
  wellFormed other present := by
    rw [State.release_row, Option.map_eq_some_iff] at present
    obtain ⟨row, held, rfl⟩ := present
    exact formed row held
  locked q owner := by simpa using sound.locked q owner
  fresh q early := by simpa using sound.fresh q (by simpa using early)
  timed q expiry asOf reclaiming := sound.timed q expiry asOf (by simpa using reclaiming)
  acted q member := by simpa using sound.acted q member
  once := sound.once

/-- A domain commit keeps soundness when the call reports next. -/
theorem Sound.apply (sound : Sound s) {r : CallId} {write : δ → δ} {phase : Phase δ}
    (calm : ∀ q, s.lock = some q → q ≠ r) (working : (s.calls r).phase.stage = 1)
    (late : phase.stage = 2) : Sound ((s.apply r write).move r phase) where
  wellFormed := sound.wellFormed
  locked q owner := by
    have different := calm q owner
    simpa [different] using sound.locked q owner
  fresh q early := by
    rw [State.move_phase] at early
    split at early
    · omega
    · simpa using sound.fresh q early
  timed q expiry asOf reclaiming := by
    rw [State.move_phase] at reclaiming
    split at reclaiming
    · subst reclaiming
      simp [Phase.stage] at late
    · exact sound.timed q expiry asOf reclaiming
  acted q member := by
    simp only [State.move_committed, State.apply_committed, List.mem_cons] at member
    rw [State.move_phase]
    split
    · exact late
    · rename_i different
      exact sound.acted q (member.resolve_left different)
  once := by
    have absent : r ∉ s.committed := by
      intro member
      have := sound.acted r member
      omega
    simpa using ⟨absent, sound.once⟩

/-- The end of a transaction gives up its lock and keeps everything else. -/
theorem Sound.unlock (sound : Sound s) (r : CallId) : Sound (s.unlock r) where
  wellFormed := sound.wellFormed
  locked q owner := sound.locked q (State.unlock_lock_eq_some s r q |>.mp owner).1
  fresh := sound.fresh
  timed := sound.timed
  acted := sound.acted
  once := sound.once

/-- Nobody else owns a lock that has been given up. -/
theorem unlock_other (s : State δ) (r q : CallId) (owner : (s.unlock r).lock = some q) : q ≠ r :=
  (State.unlock_lock_eq_some s r q |>.mp owner).2

/-- Every effect keeps soundness. -/
theorem Sound.effect (sound : Sound s) (effect : Effect setting s event t) : Sound t := by
  cases effect with
  | tick duration =>
      exact { sound with
        timed := fun r expiry asOf reclaiming =>
          Nat.le_trans (sound.timed r expiry asOf reclaiming) (Nat.le_add_right _ _) }
  | environment event domain stepped => exact { sound with }
  | spare now kept => exact sound
  | remove now row present expired past unlocked =>
      exact { sound with
        wellFormed := by simp
        locked := fun r owner => absurd owner (by simp [unlocked]) }
  | advance event r phase before after forward resting timed =>
      exact sound.advance before forward timed
  | create r fate now phase started absent next =>
      refine sound.lease (IdempotencyRequest.create_wellFormed ..) (sound.unlocked_of_absent absent)
        (by rw [started]; rfl) ?_
      rcases next with rfl | rfl <;> simp [Phase.stage]
  | reclaim r fate expiry asOf row phase started unlocked present matched next =>
      refine sound.lease (row.reclaim_wellFormed r expiry) unlocked (by rw [started]; rfl) ?_
      rcases next with rfl | rfl <;> simp [Phase.stage]
  | finalizeAlone event r outcome phase writer unlocked before calm after next =>
      have written := sound.release (r := r) fun row _ =>
        row.finalize_wellFormed outcome s.now
      exact written.later (by simp [unlocked]) (by simp [before, after]) (by omega)
  | lock r write outcome started unlocked joins acted =>
      have stage : (s.calls r).phase.stage = 1 := by rw [started]; rfl
      have moved : Sound (s.move r (.committing write outcome s.now)) :=
        sound.later (by simp [unlocked]) (by rw [stage]; exact Nat.le_refl 1)
          (by simp [Phase.stage])
      exact { moved with
        locked := fun q owner => by
          simp only [State.move_lock, Option.map_eq_some_iff] at owner
          obtain ⟨row, present, rfl⟩ := owner
          exact ⟨by simp [Phase.inTransaction], by simp [present]⟩ }
  | commit r fate write outcome finalizedAt phase started after next =>
      have working : (s.calls r).phase.stage = 1 := by rw [started]; rfl
      have written : Sound (if s.lock = some r then s.release r (·.finalize outcome finalizedAt)
          else s) := by
        split
        · exact sound.release fun row _ => row.finalize_wellFormed outcome finalizedAt
        · exact sound
      have unlocked := written.unlock r
      refine unlocked.apply (unlock_other _ r) ?_ after
      split <;> simp [working]
  | rollback event r phase after next =>
      refine (sound.unlock r).later (unlock_other s r) ?_ (by omega)
      rw [after]
      exact Phase.stage_le _
  | act r fate write outcome phase started wrapped acted after next =>
      refine sound.apply ?_ (by rw [started]; rfl) after
      rintro q owner rfl
      exact sound.not_owner (by rw [started]; rfl) owner
  | mark event r writer unlocked started =>
      have written := sound.release (r := r) fun row _ => row.markRetryableFailure_wellFormed
      exact written.later (by simp [unlocked]) (by simp [started, Phase.stage])
        (by simp [Phase.stage])

/-- Every reachable state is sound. -/
theorem sound_of_reachable {guard : State δ → Event η → Prop}
    (reached : (machine setting).Reachable guard s) : Sound s := by
  refine reached.invariant ?_ fun s event t _ taken sound => sound.effect (effect_of_step taken)
  rintro s ⟨now, domain, rfl⟩
  exact sound_fresh now domain

end PostsMedia.Idempotency
