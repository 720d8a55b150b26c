import PostsMedia.Library.Doubles
import PostsMedia.Queues.Lifecycle

namespace PostsMedia.Outbox

open Doubles

/-- The cap of the backoff in milliseconds. -/
def maxDelayMs (maxRetryDelaySeconds : ℕ) : ℚ := toDouble (maxRetryDelaySeconds * 1000)

/-- The power is exact as long as it is below the cap. -/
def cappedBase (nextAttemptNumber maxRetryDelaySeconds : ℕ) : ℚ :=
  min (1000 * 2 ^ (nextAttemptNumber - 1)) (maxDelayMs maxRetryDelaySeconds)

/-- `PublicationBackoffService.delayMs`. The product and the sum are doubles. -/
def delayMs (nextAttemptNumber maxRetryDelaySeconds : ℕ) (random : ℚ) : ℚ :=
  let base := cappedBase nextAttemptNumber maxRetryDelaySeconds
  let jitter := toDouble (min (1 / 4) (max 0 random) * base)
  min (maxDelayMs maxRetryDelaySeconds) ⌈toDouble (base + jitter)⌉

section Delays

variable {random : ℚ} {nextAttemptNumber maxRetryDelaySeconds : ℕ}

theorem delayMs_le (nextAttemptNumber maxRetryDelaySeconds : ℕ) (random : ℚ) :
    delayMs nextAttemptNumber maxRetryDelaySeconds random ≤ maxDelayMs maxRetryDelaySeconds :=
  min_le_left ..

theorem cappedBase_pos (nextAttemptNumber : ℕ) (positive : 0 < maxRetryDelaySeconds) :
    0 < cappedBase nextAttemptNumber maxRetryDelaySeconds := by
  have some : (0 : ℚ) < maxRetryDelaySeconds * 1000 := by positivity
  exact lt_min (by positivity) (toDouble_pos some)

/-- The base is a double. -/
theorem toDouble_cappedBase (positive : 0 < maxRetryDelaySeconds) :
    toDouble (cappedBase nextAttemptNumber maxRetryDelaySeconds) =
      cappedBase nextAttemptNumber maxRetryDelaySeconds := by
  have some : (0 : ℚ) < maxRetryDelaySeconds * 1000 := by positivity
  unfold cappedBase
  rcases min_choice (1000 * 2 ^ (nextAttemptNumber - 1)) (maxDelayMs maxRetryDelaySeconds) with
    power | cap
  · have exact := toDouble_mul_zpow (x := 1000) (by norm_num) (nextAttemptNumber - 1 : ℕ)
    have thousand : toDouble 1000 = 1000 := by
      exact_mod_cast toDouble_natCast (n := 1000) (by norm_num) (by norm_num)
    rw [power]
    rwa [thousand, zpow_natCast] at exact
  · rw [cap]
    exact toDouble_toDouble some

/-- The jitter only adds to the base. -/
theorem cappedBase_le_delayMs (positive : 0 < maxRetryDelaySeconds) :
    cappedBase nextAttemptNumber maxRetryDelaySeconds ≤
      delayMs nextAttemptNumber maxRetryDelaySeconds random := by
  have base := cappedBase_pos nextAttemptNumber positive
  have jitter : 0 ≤ toDouble (min (1 / 4) (max 0 random) *
      cappedBase nextAttemptNumber maxRetryDelaySeconds) :=
    toDouble_nonneg (mul_nonneg (le_min (by norm_num) (le_max_left ..)) base.le)
  refine le_min (min_le_right ..) ?_
  calc cappedBase nextAttemptNumber maxRetryDelaySeconds
      = toDouble (cappedBase nextAttemptNumber maxRetryDelaySeconds) :=
        (toDouble_cappedBase positive).symm
    _ ≤ toDouble (cappedBase nextAttemptNumber maxRetryDelaySeconds + _) :=
        toDouble_mono base (le_add_of_nonneg_right jitter)
    _ ≤ _ := Int.le_ceil _

end Delays

/-- The periods of the configuration. -/
structure Periods where
  maxRetryDelaySeconds : ℕ
  publishedRetentionDays : ℕ

def Periods.retentionMs (periods : Periods) : ℕ :=
  periods.publishedRetentionDays * 24 * 60 * 60 * 1000

/-- The times of the statements come from the clock. A statement may take effect later. -/
def Timely (periods : Periods) (s : State) : Event → Prop
  | .markRetryWait token id nextAttemptAt _ => ∃ dispatch errorCode errorMessage asOf random,
      s.publications token id = .retrying dispatch errorCode errorMessage ∧ asOf ≤ s.now ∧
        (nextAttemptAt : ℚ) = asOf + delayMs (dispatch.publishAttempts + 1)
          periods.maxRetryDelaySeconds random
  | .deletePublished before => ∃ asOf ≤ s.now, before = asOf - periods.retentionMs
  | _ => True

/-- The longest time for which an open row is not claimable. -/
def window (settings : Settings) (periods : Periods) : ℕ :=
  max (settings.leaseSeconds * 1000) ⌊maxDelayMs periods.maxRetryDelaySeconds⌋₊

section Windows

variable {settings : Settings} {periods : Periods} {s t : State} {event : Event}

/-- Every open row is due within the window. -/
def Timed (settings : Settings) (periods : Periods) (s : State) : Prop :=
  ∀ row ∈ s.rows, ∀ due, row.due = some due → due ≤ s.now + window settings periods

theorem nextAttemptAt_le {asOf nextAttemptAt number : ℕ} {random : ℚ} (past : asOf ≤ s.now)
    (drawn : (nextAttemptAt : ℚ) =
      asOf + delayMs number periods.maxRetryDelaySeconds random) :
    nextAttemptAt ≤ s.now + window settings periods := by
  have delay := delayMs_le number periods.maxRetryDelaySeconds random
  have cap : nextAttemptAt - asOf ≤ ⌊maxDelayMs periods.maxRetryDelaySeconds⌋₊ := by
    rcases Nat.le_total nextAttemptAt asOf with early | late
    · simp [Nat.sub_eq_zero_of_le early]
    · refine Nat.le_floor ?_
      rw [Nat.cast_sub late]
      linarith
  have inside : ⌊maxDelayMs periods.maxRetryDelaySeconds⌋₊ ≤ window settings periods :=
    Nat.le_max_right ..
  have clock : asOf ≤ s.now := past
  exact Nat.le_trans (Nat.sub_le_iff_le_add'.mp cap) (Nat.add_le_add clock inside)

theorem timed_update (timed : Timed settings periods s) (now : s.now ≤ t.now)
    (change : ProcessingDispatch → ProcessingDispatch) (rows : t.rows = s.rows.map change)
    (changes : ∀ row ∈ s.rows, (change row).due = row.due ∨
      ∀ due, (change row).due = some due → due ≤ t.now + window settings periods) :
    Timed settings periods t := by
  intro row member due dueAt
  rw [rows] at member
  obtain ⟨old, present, rfl⟩ := List.mem_map.mp member
  rcases changes old present with same | bounded
  · exact Nat.le_trans (timed old present due (same ▸ dueAt)) (Nat.add_le_add_right now _)
  · exact bounded due dueAt

theorem timed_keep (timed : Timed settings periods s) (now : s.now ≤ t.now)
    (rows : t.rows = s.rows) : Timed settings periods t :=
  timed_update timed now id (rows.trans (List.map_id _).symm) fun _ _ => .inl rfl

theorem timed_mark (timed : Timed settings periods s) (token : LeaseToken) (id : String)
    {publication : Publication} {change : ProcessingDispatch → ProcessingDispatch} (fate : Fate)
    (name : String) (bounded : ∀ row due, (change row).due = some due →
      due ≤ s.now + window settings periods) :
    Timed settings periods ((if fate.tookEffect then s.mark token id change else s).publishing
      token name publication) := by
  split
  · refine timed_update timed le_rfl
      (fun row => if row.owned id token then change row else row) rfl fun row _ => ?_
    split
    · exact .inr (bounded row)
    · exact .inl rfl
  · exact timed_keep timed le_rfl rfl

theorem timed_claim (timed : Timed settings periods s) {asOf : Time} (past : asOf ≤ s.now)
    (locked : List String) (token : LeaseToken) (now : t.now = s.now)
    (rows : t.rows =
      (claimBatch s.rows locked settings.batchSize settings.leaseSeconds token asOf).1) :
    Timed settings periods t := by
  refine timed_update timed now.ge _ rows fun row _ => ?_
  split
  · refine .inr fun due dueAt => ?_
    cases dueAt
    rw [now]
    exact Nat.add_le_add past (Nat.le_max_left ..)
  · exact .inl rfl

theorem timed_step (sound : Sound s) (timely : Timely periods s event)
    (taken : step settings s event = some t) (timed : Timed settings periods s) :
    Timed settings periods t := by
  have reading {token : LeaseToken} {asOf : Time} (call : s.batches token = .reading asOf) :
      asOf ≤ s.now := by
    have began := sound.calls token
    rw [call] at began
    exact began.1
  cases effect_of_step taken with
  | tick => exact timed_keep timed (Nat.le_add_right ..) rfl
  | insert new _ =>
      intro row member due dueAt
      rcases s.mem_insert.mp member with rfl | old
      · rw [ProcessingDispatch.due, (ProcessingDispatch.of_inserted new).1] at dueAt
        cases dueAt
        exact Nat.zero_le _
      · exact timed row old due dueAt
  | @claim token locked _ _ call => exact timed_claim timed (reading call) locked token rfl rfl
  | @claimUnseen token locked _ _ call =>
      exact timed_claim timed (reading call) locked token rfl rfl
  | markPublished | markDead =>
      refine timed_mark timed _ _ _ _ fun row due dueAt => ?_
      cases dueAt
  | markRetryWait =>
      obtain ⟨_, _, _, asOf, random, _, past, drawn⟩ := timely
      refine timed_mark timed _ _ _ _ fun row due dueAt => ?_
      cases dueAt
      exact nextAttemptAt_le past drawn
  | deletePublished => exact fun row member => timed row (List.mem_of_mem_filter member)
  | begin | refuse | reject | add | miss | crash => exact timed_keep timed le_rfl rfl

theorem timed_of_reachable (reached : (machine settings).Reachable (Timely periods) s) :
    Timed settings periods s := by
  refine reached.strengthen Sound (fun _ => sound_of_reachable) ?_ ?_
  · intro start initial row member
    rw [initial.1] at member
    cases member
  · exact fun _ _ _ sound _ timely taken timed => timed_step sound timely taken timed

/-- Whatever happened, an open row is claimable after the window. -/
theorem claimable_of_timed (sound : Sound s) (timed : Timed settings periods s)
    {row : ProcessingDispatch} (member : row ∈ s.rows) (isOpen : row.isOpen = true) :
    row.claimable (s.now + window settings periods) = true := by
  obtain ⟨due, dueAt, claimable⟩ := due_of_healthy (sound.healthy row member) isOpen
  exact (claimable _).mpr (timed row member due dueAt)

end Windows

end PostsMedia.Outbox
