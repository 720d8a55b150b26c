import PostsMedia.Posts.Calls

namespace PostsMedia.Posts

open Idempotency

variable {δ η : Type} {setting : Setting δ η} {s t : State δ} {event : Event η}

/-- The row replays exactly this outcome. -/
structure FinalizedWith (row : Row) (outcome : IdempotentOutcome) : Prop where
  finalized : row.state = .finalized
  responseStatus : row.responseStatus = some outcome.responseStatus
  responseBody : row.responseBody = some outcome.responseBody
  targetResourceId : row.targetResourceId = outcome.targetResourceId

/-- The statement of `finalize` stores its outcome. -/
theorem finalizedWith_finalize (row : Row) (outcome : IdempotentOutcome) (now : Time) :
    FinalizedWith (row.finalize outcome now) outcome := ⟨rfl, rfl, rfl, rfl⟩

/-- This step commits the domain writes of a call together with its finalized row. -/
def CommitsCoupled (s t : State δ) : Prop :=
  ∃ r write outcome finalizedAt row, (s.calls r).phase = .committing write outcome finalizedAt ∧
    t.committed = r :: s.committed ∧ t.domain = write s.domain ∧ t.row = some row ∧
    FinalizedWith row outcome

/-- Only the rest of the system and coupled commits change the domain tables. -/
def Coupled (setting : Setting δ η) (guard : State δ → Event η → Prop) : Prop :=
  ∀ s event t, (machine setting).Reachable guard s → guard s event →
    step setting s event = some t →
    CommitsCoupled s t ∨
      t.committed = s.committed ∧ (t.domain = s.domain ∨ ∃ other, event = .environment other)

/-- An effect on a locked row is a coupled commit or leaves the domain tables alone. -/
theorem coupled_effect (sound : Sound s) (anchored : Anchored s)
    (joins : ∀ r, (setting.service r).joins = true) (effect : Effect setting s event t) :
    CommitsCoupled s t ∨
      t.committed = s.committed ∧ (t.domain = s.domain ∨ ∃ other, event = .environment other) := by
  cases effect with
  | tick | spare | remove | advance | create | reclaim | finalizeAlone | lock | rollback | mark =>
      exact .inr ⟨rfl, .inl rfl⟩
  | environment other domain stepped => exact .inr ⟨rfl, .inr ⟨other, rfl⟩⟩
  | commit r fate write outcome finalizedAt phase started after next =>
      have owner := anchored r (by rw [started]; rfl)
      obtain ⟨row, present⟩ := Option.isSome_iff_exists.mp (sound.locked r owner).2
      have written := finalizedWith_finalize row outcome finalizedAt
      refine .inl ⟨r, write, outcome, finalizedAt, _, started, ?_, ?_, ?_, written⟩
      · simp [owner]
      · simp [owner]
      · simp [owner, present]
  | act r fate write outcome phase started wrapped acted after next => simp [joins r] at wrapped

/-- Create-post and add-media commit only together with their finalized key while each `finalize`
inside a transaction finds the row. -/
theorem postsCalls_coupled (calls : PostsCalls) (environment : η → Tables → Option Tables) :
    Coupled (calls.setting environment) FindsRow := by
  intro s event t reached _ taken
  have sound := sound_of_reachable reached
  have anchored := anchored_of_reachable (fun _ _ finds => finds) reached
  exact coupled_effect sound anchored (fun r => (calls.call r).service_joins)
    (effect_of_step taken)

/-- A single client commits, and the step that commits is coupled. -/
theorem jsonSetting_commit_coupled : ∃ s t : State Tables,
    (machine jsonSetting).Reachable FindsRow s ∧ t.committed = [0] ∧ CommitsCoupled s t := by
  have finds : ∀ (s : State Tables) (event : Event Empty), FencedKeeping s event →
      FindsRow s event := fun _ _ fenced => findsRow_of_fenced fenced.1
  obtain ⟨s, reached, observed⟩ := (machine jsonSetting).reachable_of_observed FencedKeeping
    (fun s => (s.committed, (step jsonSetting s (.commit 0 .ok)).map (·.committed)))
    ([], some [0]) (loneCommit.take 3) jsonStart_initial (by decide)
  simp only [Prod.mk.injEq, Option.map_eq_some_iff] at observed
  obtain ⟨nothing, t, taken, committed⟩ := observed
  refine ⟨s, t, reached.mono finds, committed, ?_⟩
  have coupled := postsCalls_coupled jsonCalls (fun _ tables => some tables) s (.commit 0 .ok) t
    (reached.mono finds) trivial taken
  rcases coupled with coupled | ⟨unchanged, _⟩
  · exact coupled
  · simp [nothing, committed] at unchanged

/-- The first client fails, the second one reclaims the key at the end of its time, and the cleanup
deletes the row before the second client commits. -/
def commitAfterCleanup : List (Event Empty) :=
  [.acquire 0, .create 0 .ok, .fail 0, .markRetryableFailure 0 .ok, .tick 86399999, .acquire 1,
    .create 1 .ok, .find 1 .ok, .decide 1, .reclaim 1 .ok, .tick 1, .removeExpired 86400000,
    .finalizeInTransaction 1 .ok]

/-- The second client commits its post although its key has no row. -/
theorem jsonSetting_not_coupled : ¬ Coupled jsonSetting Machine.anything := by
  intro coupled
  obtain ⟨s, reached, observed⟩ := (machine jsonSetting).reachable_of_observed
    (fun _ (_ : Event Empty) => True)
    (fun s => (s.committed, (step jsonSetting s (.commit 1 .ok)).map
      fun t => (t.committed, t.row.isSome)))
    ([], some ([1], false)) commitAfterCleanup jsonStart_initial (by decide)
  simp only [Prod.mk.injEq, Option.map_eq_some_iff] at observed
  obtain ⟨nothing, t, taken, committed, absent⟩ := observed
  rcases coupled s _ t reached trivial taken with ⟨_, _, _, _, row, _, _, _, present, _⟩ | ⟨same, _⟩
  · simp [present] at absent
  · simp [nothing, committed] at same

/-- The cleanup deletes no row while a call works under the key. -/
def SparesWorkers (s : State δ) : Event η → Prop
  | .removeExpired now => ∀ row ∈ s.row, row.expiresAt ≤ now → ∀ r, (s.calls r).phase.stage ≠ 1
  | _ => True

/-- A call that works under the key keeps its row. -/
def Backed (s : State δ) : Prop := ∀ r, (s.calls r).phase.stage = 1 → s.row.isSome = true

/-- A call that stops working under the key may forget it. -/
theorem Backed.stop (backed : Backed s) {r : CallId} {phase : Phase δ} (after : phase.stage ≠ 1)
    (same : t.calls = (s.move r phase).calls) (kept : s.row.isSome = true → t.row.isSome = true) :
    Backed t := by
  intro q working
  rw [same, State.move_phase] at working
  split at working
  · exact absurd working after
  · exact kept (backed q working)

/-- Such a cleanup keeps the row of every working call. -/
theorem Backed.effect (backed : Backed s) (spares : SparesWorkers s event)
    (effect : Effect setting s event t) : Backed t := by
  cases effect with
  | tick | environment | spare => exact backed
  | remove now row present expired past unlocked =>
      exact fun q working => absurd working (spares row present expired q)
  | advance event r phase before after forward resting timed =>
      exact backed.stop resting rfl id
  | create | reclaim => exact fun q working => by simp
  | lock r write outcome started unlocked joins acted =>
      intro q working
      rw [State.move_phase] at working
      split at working
      · exact backed r (by rw [started]; rfl)
      · exact backed q working
  | finalizeAlone event r outcome phase writer unlocked before calm after next =>
      intro q working
      rw [State.move_phase] at working
      split at working
      · omega
      · simpa using backed q (by simpa using working)
  | commit r fate write outcome finalizedAt phase started after next =>
      intro q working
      rw [State.move_phase] at working
      split at working
      · omega
      · have present := backed q (by split at working <;> simpa using working)
        split <;> simpa using present
  | rollback event r phase after next => exact backed.stop (by omega) rfl id
  | act r fate write outcome phase started wrapped acted after next =>
      exact backed.stop (by omega) rfl id
  | mark event r writer unlocked started =>
      intro q working
      rw [State.move_phase] at working
      split at working
      · simp [Phase.stage] at working
      · simpa using backed q (by simpa using working)

/-- Every `finalize` inside a transaction finds its row when the cleanup spares working calls. -/
theorem findsRow_of_spares (reached : (machine setting).Reachable SparesWorkers s)
    (taken : step setting s event = some t) : FindsRow s event := by
  have backed : Backed s := by
    refine reached.invariant ?_ fun s event t spares taken backed =>
      backed.effect spares (effect_of_step taken)
    rintro s ⟨now, domain, rfl⟩ r working
    simp [State.fresh, Phase.stage] at working
  cases event with
  | finalizeInTransaction r fate =>
      cases fate with
      | ok =>
          simp only [step, stepFinalizeInTransaction] at taken
          split at taken
          · rename_i started _ _
            exact backed r (by rw [started]; rfl)
          · cases taken
      | _ => trivial
  | _ => trivial

/-- It is enough for the coupling that the cleanup spares the calls that are at work. -/
theorem reachable_of_spares (reached : (machine setting).Reachable SparesWorkers s) :
    (machine setting).Reachable FindsRow s := by
  obtain ⟨origin, initial, path⟩ := reached
  refine ⟨origin, initial, ?_⟩
  induction path with
  | refl => exact .refl _
  | snoc event before admitted taken kept =>
      exact .snoc event kept (findsRow_of_spares ⟨origin, initial, before⟩ taken) taken

end PostsMedia.Posts
