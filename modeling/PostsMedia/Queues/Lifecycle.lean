import PostsMedia.Media.Repository
import PostsMedia.Queues.Leases

namespace PostsMedia.Outbox

/-- The row keeps its fixed columns, and a closed row keeps all of them. -/
def Evolves (old row : ProcessingDispatch) : Prop :=
  old.Same row ∧ (old.isOpen = false → row = old)

section Tables

variable {settings : Settings} {s t : State}

/-- Everything that a statement can do to the table. -/
inductive TableChange (s t : State) : Prop
  | update (change : ProcessingDispatch → ProcessingDispatch) (rows : t.rows = s.rows.map change)
      (created : t.created = s.created)
      (evolves : ∀ dispatch ∈ s.rows, Evolves dispatch (change dispatch))
  | insert (dispatch : ProcessingDispatch) (position : Nat) (fresh : dispatch.id ∉ s.created)
      (inserted : t = s.insert dispatch position)
  | delete (before : Time) (deleted : t = { s with rows := deletePublishedBefore s.rows before })

theorem tableChange_keep (rows : t.rows = s.rows) (created : t.created = s.created) :
    TableChange s t :=
  .update id (rows.trans (List.map_id _).symm) created
    fun dispatch _ => ⟨.refl dispatch, fun _ => rfl⟩

/-- A mark changes only a row that is being published. -/
theorem tableChange_mark (token : LeaseToken) (id : String) {publication : Publication}
    (change : ProcessingDispatch → ProcessingDispatch)
    (same : ∀ dispatch : ProcessingDispatch, dispatch.Same (change dispatch)) (fate : Fate)
    (name : String) :
    TableChange s ((if fate.tookEffect then s.mark token id change else s).publishing token name
      publication) := by
  split
  · refine .update (fun dispatch => if dispatch.owned id token then change dispatch else dispatch)
      rfl rfl fun dispatch _ => ?_
    split
    · rename_i owned
      refine ⟨same dispatch, fun closed => ?_⟩
      rw [ProcessingDispatch.isOpen_of_owned owned] at closed
      cases closed
    · exact ⟨.refl dispatch, fun _ => rfl⟩
  · exact tableChange_keep rfl rfl

theorem tableChange_claim (sound : Sound s) (locked : List String) (batchSize leaseSeconds : Nat)
    (token : LeaseToken) (asOf : Time)
    (rows : t.rows = (claimBatch s.rows locked batchSize leaseSeconds token asOf).1)
    (created : t.created = s.created) : TableChange s t := by
  refine .update _ rows created fun dispatch member => ?_
  split
  · rename_i candidate
    have opened := isOpen_of_claimable (claimable_of_candidate sound.distinct member candidate)
    refine ⟨dispatch.same_claimed .., fun closed => ?_⟩
    rw [opened] at closed
    cases closed
  · exact ⟨.refl dispatch, fun _ => rfl⟩

theorem tableChange_of_step {event : Event} (sound : Sound s)
    (taken : step settings s event = some t) : TableChange s t := by
  cases effect_of_step taken with
  | @insert dispatch position _ fresh => exact .insert dispatch position fresh rfl
  | @claim token locked _ asOf _ => exact tableChange_claim sound locked _ _ token asOf rfl rfl
  | @claimUnseen token locked _ asOf _ =>
      exact tableChange_claim sound locked _ _ token asOf rfl rfl
  | markPublished => exact tableChange_mark _ _ _ (fun row => row.same_markPublished _) _ _
  | markRetryWait => exact tableChange_mark _ _ _ (fun row => row.same_markRetryWait ..) _ _
  | markDead => exact tableChange_mark _ _ _ (fun row => row.same_markDead ..) _ _
  | deletePublished before => exact .delete before rfl
  | tick | begin | refuse | reject | add | miss | crash => exact tableChange_keep rfl rfl

/-- An open row stays in the table, and a closed row stays the same or was published. -/
theorem TableChange.forward (change : TableChange s t) {dispatch : ProcessingDispatch}
    (member : dispatch ∈ s.rows) :
    (∃ row ∈ t.rows, Evolves dispatch row) ∨ dispatch.status = .published := by
  cases change with
  | update change rows _ evolves =>
      left
      refine ⟨change dispatch, ?_, evolves dispatch member⟩
      rw [rows]
      exact List.mem_map_of_mem member
  | insert new position _ inserted =>
      left
      refine ⟨dispatch, ?_, .refl dispatch, fun _ => rfl⟩
      subst inserted
      exact s.mem_insert.mpr (.inr member)
  | delete before deleted =>
      subst deleted
      by_cases done : dispatch.status = .published
      · exact .inr done
      · exact .inl ⟨dispatch, by simp [deletePublishedBefore, member, done], .refl dispatch,
          fun _ => rfl⟩

/-- Every row was in the table before, or its id is new. -/
theorem TableChange.backward (change : TableChange s t) {row : ProcessingDispatch}
    (member : row ∈ t.rows) :
    (∃ dispatch ∈ s.rows, Evolves dispatch row) ∨ row.id ∉ s.created := by
  cases change with
  | update change rows _ evolves =>
      rw [rows] at member
      obtain ⟨dispatch, present, rfl⟩ := List.mem_map.mp member
      exact .inl ⟨dispatch, present, evolves dispatch present⟩
  | insert new position fresh inserted =>
      subst inserted
      rcases s.mem_insert.mp member with rfl | old
      · exact .inr fresh
      · exact .inl ⟨row, old, .refl row, fun _ => rfl⟩
  | delete before deleted =>
      subst deleted
      exact .inl ⟨row, List.mem_of_mem_filter member, .refl row, fun _ => rfl⟩

theorem TableChange.created (change : TableChange s t) {id : String} (known : id ∈ s.created) :
    id ∈ t.created := by
  cases change with
  | update _ _ created => exact created ▸ known
  | insert dispatch _ _ inserted =>
      subst inserted
      exact List.mem_cons_of_mem _ known
  | delete _ deleted =>
      subst deleted
      exact known

/-- The row is gone from the table. -/
def Absent (s : State) (dispatch : ProcessingDispatch) : Prop :=
  ∀ row ∈ s.rows, row.id ≠ dispatch.id

/-- A closed row stays as it is until the cleanup deletes it, and only a published row goes. -/
def Closed (dispatch : ProcessingDispatch) (s : State) : Prop :=
  dispatch.id ∈ s.created ∧ (dispatch ∈ s.rows ∨ dispatch.status = .published ∧ Absent s dispatch)

theorem closed_step (sound : Sound s) (change : TableChange s t)
    {dispatch : ProcessingDispatch} (finished : dispatch.isOpen = false)
    (closed : Closed dispatch s) : Closed dispatch t := by
  obtain ⟨known, present | ⟨published, absent⟩⟩ := closed
  · refine ⟨change.created known, ?_⟩
    rcases change.forward present with ⟨row, member, _, same⟩ | published
    · exact .inl (same finished ▸ member)
    · by_cases stays : ∃ row ∈ t.rows, row.id = dispatch.id
      · obtain ⟨row, member, name⟩ := stays
        rcases change.backward member with ⟨old, before, same, kept⟩ | fresh
        · have equal := eq_of_id sound.distinct before present (same.id.trans name)
          subst equal
          exact .inl (kept finished ▸ member)
        · exact absurd (name ▸ known) fresh
      · exact .inr ⟨published, fun row member name => stays ⟨row, member, name⟩⟩
  · refine ⟨change.created known, .inr ⟨published, fun row member name => ?_⟩⟩
    rcases change.backward member with ⟨old, before, same, _⟩ | fresh
    · exact absent old before (same.id.trans name)
    · exact absurd (name ▸ known) fresh

end Tables

/-- An open row is due at a definite time and claimable from then on. -/
theorem due_of_healthy {queued : List Added} {dispatch : ProcessingDispatch}
    (healthy : Healthy queued dispatch) (isOpen : dispatch.isOpen = true) :
    ∃ due, dispatch.due = some due ∧ ∀ now, dispatch.claimable now = true ↔ due ≤ now := by
  cases status : dispatch.status with
  | pending => exact ⟨0, by simp [ProcessingDispatch.due, status],
      by simp [ProcessingDispatch.claimable, status]⟩
  | retryWait =>
      obtain ⟨due, waits⟩ := Option.isSome_iff_exists.mp (healthy.waiting status)
      exact ⟨due, by simp [ProcessingDispatch.due, status, waits],
        by simp [ProcessingDispatch.claimable, status, waits]⟩
  | publishing =>
      obtain ⟨expiry, until'⟩ := Option.isSome_iff_exists.mp (healthy.expiry.mpr status)
      exact ⟨expiry, by simp [ProcessingDispatch.due, status, until'],
        by simp [ProcessingDispatch.claimable, status, until']⟩
  | published | dead => simp [ProcessingDispatch.isOpen, status] at isOpen

/-- What holds of every dispatch from its insertion to its deletion. -/
structure Lifecycle (m : Machine State Event) : Prop where
  leased : ∀ s, m.Reachable Machine.anything s → ∀ dispatch ∈ s.rows,
    (dispatch.status = .publishing ↔
      dispatch.leaseToken.isSome = true ∧ dispatch.leaseExpiresAt.isSome = true)
  exclusive : ∀ s event t, m.Reachable Machine.anything s → m.step s event = some t →
    ∀ token id expiry, s.terms token id = none → t.terms token id = some expiry →
      ∀ other term, s.terms other id = some term → s.released other id = false → term ≤ s.now
  queued : ∀ s, m.Reachable Machine.anything s → ∀ dispatch ∈ s.rows,
    dispatch.status = .published → ∃ job ∈ s.queued, job.Carries dispatch
  closed : ∀ s t, m.Reachable Machine.anything s → m.Path Machine.anything s t →
    ∀ dispatch ∈ s.rows, dispatch.isOpen = false →
      dispatch ∈ t.rows ∨ dispatch.status = .published ∧ Absent t dispatch
  deleted : ∀ s event t, m.Reachable Machine.anything s → m.step s event = some t →
    ∀ dispatch ∈ s.rows, Absent t dispatch → dispatch.status = .published
  due : ∀ s, m.Reachable Machine.anything s → ∀ dispatch ∈ s.rows, dispatch.isOpen = true →
    ∃ due, dispatch.due = some due ∧ ∀ now, dispatch.claimable now = true ↔ due ≤ now

/-- Every dispatch of every outbox obeys its lifecycle. -/
theorem outbox_lifecycle (settings : Settings) : Lifecycle (machine settings) where
  leased s reached dispatch member := by
    have healthy := (sound_of_reachable reached).healthy dispatch member
    exact ⟨fun status => ⟨healthy.token.mpr status, healthy.expiry.mpr status⟩,
      fun both => healthy.token.mp both.1⟩
  exclusive s event t reached taken token id expiry before after other term recorded
      unreleased := by
    obtain ⟨a, granted⟩ := grant_of_step (sound_of_reachable reached) taken before after
    exact Lease.grant_excludes (exclusive_of_reachable reached id) granted recorded unreleased
  queued s reached dispatch member :=
    ((sound_of_reachable reached).healthy dispatch member).published
  closed s t reached path dispatch member finished := by
    have start : Sound s ∧ Closed dispatch s :=
      ⟨sound_of_reachable reached, (sound_of_reachable reached).known dispatch member, .inl member⟩
    have keeps : ∀ a event b, Machine.anything a event → (machine settings).step a event = some b →
        Sound a ∧ Closed dispatch a → Sound b ∧ Closed dispatch b := by
      intro a event b _ taken ⟨sound, closed⟩
      exact ⟨sound_step sound taken,
        closed_step sound (tableChange_of_step sound taken) finished closed⟩
    exact (path.invariant keeps start).2.2
  deleted s event t reached taken dispatch member absent := by
    have change := tableChange_of_step (sound_of_reachable reached) taken
    rcases change.forward member with ⟨row, present, same, _⟩ | published
    · exact absurd same.id.symm (absent row present)
    · exact published
  due s reached dispatch member :=
    due_of_healthy ((sound_of_reachable reached).healthy dispatch member)

/-- Small batches with a short lease. -/
def sampleSettings : Settings := ⟨2, 30⟩

def emptyOutbox : State :=
  ⟨0, [], fun _ => .idle, fun _ _ => .idle, [], [], fun _ _ => none, fun _ _ => false⟩

/-- The first dispatcher adds the job and dies. After its lease a second one publishes the row. -/
def republication : List Event :=
  [.insert (createWithDispatch sampleInput).2 0, .begin 0, .claim 0 [] .ok,
    .add 0 "dispatch-0" .ok "", .crash 0, .tick 30000, .begin 1, .claim 1 [] .ok,
    .add 1 "dispatch-0" .ok "", .markPublished 1 "dispatch-0" 30000 .ok ""]

/-- The published row is in the queue. -/
theorem sampleOutbox_published : ∃ s : State,
    (machine sampleSettings).Reachable Machine.anything s ∧
      s.rows.map (·.status) = [.published] ∧
      ∀ dispatch ∈ s.rows, ∃ job ∈ s.queued, job.Carries dispatch := by
  obtain ⟨s, reached, observed⟩ := (machine sampleSettings).reachable_of_observed
    Machine.anything (fun s => s.rows.map (·.status)) [.published] republication
    (s := emptyOutbox) ⟨rfl, fun _ => rfl, fun _ _ => rfl, rfl, rfl, fun _ _ => rfl,
      fun _ _ => rfl⟩ (by decide)
  refine ⟨s, reached, observed, fun dispatch member => ?_⟩
  have status : dispatch.status ∈ s.rows.map (·.status) := List.mem_map_of_mem member
  rw [observed, List.mem_singleton] at status
  exact (outbox_lifecycle sampleSettings).queued s reached dispatch member status

end PostsMedia.Outbox
