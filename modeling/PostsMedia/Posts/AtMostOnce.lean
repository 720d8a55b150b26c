import PostsMedia.Posts.Calls

namespace PostsMedia.Posts

open Idempotency

variable {δ η : Type} {setting : Setting δ η} {s t : State δ} {event : Event η}

/-- Nothing is committed, or one commit left a finalized row. -/
def Once (s : State δ) : Prop :=
  s.committed = [] ∨
    s.committed.length = 1 ∧ ∃ row, s.row = some row ∧ row.state = .finalized

/-- A fenced effect that keeps the row adds at most the first commit. -/
theorem Once.effect (sound : Sound s) (anchored : Anchored s) (owned : Owned s)
    (joins : ∀ r, (setting.service r).joins = true) (fenced : FencedKeeping s event)
    (effect : Effect setting s event t) (once : Once s) : Once t := by
  rcases once with nothing | ⟨single, row, present, finalized⟩
  · cases effect with
    | tick | environment | spare | remove | advance | create | reclaim | finalizeAlone | lock
    | rollback | mark => exact .inl nothing
    | commit r fate write outcome finalizedAt phase started after next =>
        have owner := anchored r (by rw [started]; rfl)
        have found := (sound.locked r owner).2
        obtain ⟨row, present⟩ := Option.isSome_iff_exists.mp found
        refine .inr ⟨by simp [owner, nothing], row.finalize outcome finalizedAt, ?_, rfl⟩
        simp [owner, present]
    | act r fate write outcome phase started wrapped acted after next =>
        simp [joins r] at wrapped
  · obtain ⟨kept, unchanged | ⟨r, wrapped⟩⟩ :=
      finalized_frozen sound anchored owned fenced effect present finalized
    · exact .inr ⟨by rw [unchanged, single], row, kept, finalized⟩
    · simp [joins r] at wrapped

/-- Services that finalize in their transaction commit at most once in fenced runs. -/
theorem once_of_reachable (joins : ∀ r, (setting.service r).joins = true)
    (reached : (machine setting).Reachable FencedKeeping s) : Once s := by
  refine reached.strengthen (fun s => Sound s ∧ Anchored s ∧ Owned s) ?_ ?_ ?_
  · intro s reached
    exact ⟨sound_of_reachable reached,
      anchored_of_reachable (fun _ _ fenced => findsRow_of_fenced fenced.1) reached,
      owned_of_reachable (fun _ _ fenced => fenced.1) reached⟩
  · rintro s ⟨now, domain, rfl⟩
    exact .inl rfl
  · intro s event t ⟨sound, anchored, owned⟩ _ fenced taken once
    exact once.effect sound anchored owned joins fenced (effect_of_step taken)

/-- At most one call on the key commits its domain transaction in the admitted runs. -/
def AtMostOnce (setting : Setting δ η) (guard : State δ → Event η → Prop) : Prop :=
  ∀ s, (machine setting).Reachable guard s → s.committed.length ≤ 1

/-- The calls of create-post and add-media commit at most once while every `finalize` and every
`markRetryableFailure` runs under the lease of its own call. -/
theorem postsCalls_atMostOnce (calls : PostsCalls) (environment : η → Tables → Option Tables) :
    AtMostOnce (calls.setting environment) FencedKeeping := by
  intro s reached
  have joins : ∀ r, ((calls.setting environment).service r).joins = true :=
    fun r => (calls.call r).service_joins
  rcases once_of_reachable joins reached with nothing | ⟨single, _⟩
  · simp [nothing]
  · exact Nat.le_of_eq single

/-- Of three calls with one key the second one commits. It reclaims the key of the first one, and
the third one gets its response. -/
theorem jsonSetting_commits : ∃ s : State Tables,
    (machine jsonSetting).Reachable FencedKeeping s ∧ s.committed = [1] ∧
      (s.calls 2).phase.stage = 2 ∧ s.committed.length ≤ 1 := by
  obtain ⟨final, reached, observed⟩ := (machine jsonSetting).reachable_of_observed FencedKeeping
    (fun s => (s.committed, (s.calls 2).phase.stage)) ([1], 2)
    (reclaimedCommit ++ [.acquire 2, .create 2 .ok, .find 2 .ok, .decide 2]) jsonStart_initial
    (by decide)
  simp only [Prod.mk.injEq] at observed
  exact ⟨final, reached, observed.1, observed.2,
    postsCalls_atMostOnce jsonCalls _ final reached⟩

/-- The first client outlives its lease, the second one reclaims the key, and both commit. -/
def lateCommit : List (Event Empty) :=
  [.acquire 0, .create 0 .ok, .tick 900000, .acquire 1, .create 1 .ok, .find 1 .ok, .decide 1,
    .reclaim 1 .ok, .finalizeInTransaction 0 .ok, .commit 0 .ok, .finalizeInTransaction 1 .ok,
    .commit 1 .ok]

/-- Two posts exist for one key although the cleanup kept its row. -/
theorem jsonSetting_not_atMostOnce : ¬ AtMostOnce jsonSetting KeepsRow := by
  intro once
  obtain ⟨final, reached, observed⟩ := (machine jsonSetting).reachable_of_observed KeepsRow
    (fun s => (s.committed, s.domain.posts.length)) ([1, 0], 2) lateCommit jsonStart_initial
    (by decide)
  have bound := once final reached
  simp only [Prod.mk.injEq] at observed
  simp [observed.1] at bound

end PostsMedia.Posts
