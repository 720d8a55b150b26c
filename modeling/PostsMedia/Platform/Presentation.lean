import PostsMedia.Platform.Changes
import PostsMedia.Posts.Presenter

namespace PostsMedia.Platform

open MediaService (WorkerEvent)

open Processing (Rows)

variable {settings : Outbox.Settings} {s t : State} {event : Event} {mediaId : String}
variable {rows : Rows}

theorem coherent_worker (coherent : rows.media.Coherent) (worker : WorkerEvent) :
    (worker.run rows).media.Coherent := by
  cases worker with
  | claim generation jobId leaseSeconds token now =>
      simp only [WorkerEvent.run, Processing.claim]
      split
      · exact coherent.claimed ..
      · exact coherent
  | createAttempt created =>
      rw [WorkerEvent.run, (Processing.createAttempt_frame rows created).1]
      exact coherent
  | operate operation generation token now => exact coherent.run operation generation token now

/-- The columns of every stored media fit together. -/
theorem coherent_of_reachable {guard : State → Event → Prop}
    (reached : (machine settings).Reachable guard s) :
    ∀ mediaId rows, s.stored mediaId = some rows → rows.media.Coherent := by
  apply reached.strengthen Sound (fun _ => sound_of_reachable)
  · intro s initial mediaId rows present
    rw [initial.2.1 mediaId] at present
    cases present
  · intro s event t sound _ _ taken coherent mediaId rows present
    cases before : s.stored mediaId with
    | none =>
        obtain ⟨input, rfl⟩ := created_of_absent taken before present
        exact Media.coherent_created input
    | some found =>
        obtain ⟨rows', present', change⟩ := change_of_step sound taken before
        cases present.symm.trans present'
        cases change with
        | same => exact coherent mediaId _ before
        | work worker => exact coherent_worker (coherent mediaId _ before) worker
        | retry => exact Media.coherent_retried _

section Retry

/-- One retry without any other event between its statements. -/
def soloRetry (r : RetryId) (id dispatchId : String) (position : Nat) : List Event :=
  [.begin r id, .read r, .update r, .create r dispatchId, .commit r position .ok]

variable {r : RetryId} {id dispatchId : String} {position : Nat}

/-- The retry of a failed media that nothing locks starts its next generation. -/
theorem soloRetry_failed (idle : s.retries r = .idle)
    (present : s.stored (uuidColumn id) = some rows)
    (unlocked : s.locks (uuidColumn id) = none) (fresh : dispatchId ∉ s.outbox.created)
    (failed : rows.media.processingStatus = .failed) :
    ∃ t, (machine settings).execute Machine.anything s
        (soloRetry r id dispatchId position) = some t ∧
      t.retries r = .returned rows.media.retried ∧
      t.stored (uuidColumn id) = some { rows with
        media := rows.media.retried
        dispatches := rows.dispatches ++ [Processing.retryDispatch rows.media id dispatchId] } := by
  let reading := s.goto r (.reading id)
  let updating := reading.goto r (.updating id rows.media)
  let creating : State :=
    { updating.goto r (.creating id rows.media rows.media.retried) with
      locks := Function.update s.locks (uuidColumn id) (some r) }
  let dispatch := Processing.retryDispatch rows.media id dispatchId
  let committing := creating.goto r (.committing id rows.media.retried dispatch)
  have begun : step settings s (.begin r id) = some reading := by
    simp [step, idle, reading]
  have read : step settings reading (.read r) = some updating := by
    simp [step, stepRead, reading, updating, State.goto, present, failed]
  have updated : step settings updating (.update r) = some creating := by
    simp [step, stepUpdate, reading, updating, creating, State.goto, present, failed, unlocked]
  have created : step settings creating (.create r dispatchId) = some committing := by
    simp [step, stepCreate, creating, committing, dispatch, State.goto]
  have named : dispatch.id = dispatchId := rfl
  let applied := committing.apply r (uuidColumn id) rows rows.media.retried dispatch position
  have committed : step settings committing (.commit r position .ok) =
      some (applied.finish r (.returned rows.media.retried)) := by
    simp [step, stepCommit, reading, updating, creating, committing, State.goto, present, named,
      fresh,      applied]
  refine ⟨applied.finish r (.returned rows.media.retried), ?_, ?_, ?_⟩
  · simp only [soloRetry, Machine.execute, Machine.anything, if_true, machine, begun, read, updated,
      created, committed, Option.bind_some]
  · simp [State.finish, State.goto]
  · simp [State.finish, State.goto, State.apply, State.store, applied, dispatch]

/-- The retry of any other media is rejected and changes no row. -/
theorem soloRetry_refused (idle : s.retries r = .idle)
    (present : s.stored (uuidColumn id) = some rows)
    (other : rows.media.processingStatus ≠ .failed) :
    ∃ t, (machine settings).execute Machine.anything s [.begin r id, .read r] = some t ∧
      t.retries r = .rejected mediaRetryNotAllowed ∧ t.stored = s.stored ∧
      t.outbox = s.outbox := by
  refine ⟨(s.goto r (.reading id)).goto r (.rejected mediaRetryNotAllowed), ?_, ?_, rfl, rfl⟩
  · simp [Machine.execute, Machine.anything, machine, step, stepRead, idle, State.goto, present,
      other]
  · simp [State.goto]

end Retry

/-- The media of a post have this status in their responses. -/
def AllShow (stored : List Rows) (status : ProcessingStatus) : Prop :=
  stored ≠ [] ∧ ∀ rows ∈ stored,
    (presentMedia rows.media rows.variants).processingStatus = status.text

/-- What the aggregate status of a post says about the rows of its media. -/
def Explained (stored : List Rows) : PostAggregateStatus → Prop
  | .noMedia => stored = []
  | .processing => ∃ rows ∈ stored, rows.media.processingLeaseToken.isSome = true
  | .pending => AllShow stored .pending ∧ ∀ rows ∈ stored, rows.media.progress = 0
  | .completed => AllShow stored .completed ∧ ∀ rows ∈ stored, rows.media.progress = 100 ∧
      (presentMedia rows.media rows.variants).lastError.isSome = false
  | .failed => AllShow stored .failed ∧ ∀ rows ∈ stored,
      (presentMedia rows.media rows.variants).links.retry.isSome = true
  | .partiallyCompleted => (∀ rows ∈ stored, rows.media.processingLeaseToken = none) ∧
      ∃ first ∈ stored, ∃ second ∈ stored,
        (presentMedia first.media first.variants).processingStatus ≠
          (presentMedia second.media second.variants).processingStatus

section Aggregates

variable {stored : List Rows}

theorem allShow_iff {status : ProcessingStatus} : AllShow stored status ↔
    stored.map (·.media.processingStatus) ≠ [] ∧
      ∀ other ∈ stored.map (·.media.processingStatus), other = status := by
  refine and_congr (by simp) ?_
  rw [List.forall_mem_map]
  exact forall₂_congr fun rows _ =>
    ⟨fun shown => ProcessingStatus.text_injective shown, congrArg ProcessingStatus.text⟩

/-- The aggregate rule in the terms of the rows. -/
theorem explained_iff {aggregate : PostAggregateStatus} (leased : ∀ rows ∈ stored,
      rows.media.Leased) (coherent : ∀ rows ∈ stored, rows.media.Coherent) :
    AggregateOf (stored.map (·.media.processingStatus)) aggregate ↔
      Explained stored aggregate := by
  have shows {status : ProcessingStatus} (all : AllShow stored status) :
      ∀ rows ∈ stored, rows.media.processingStatus = status :=
    fun rows member => ProcessingStatus.text_injective (all.2 rows member)
  cases aggregate with
  | noMedia => exact List.map_eq_nil_iff
  | processing =>
      rw [AggregateOf, Explained, List.mem_map]
      exact exists_congr fun rows => and_congr_right fun member => (leased rows member).token.symm
  | pending =>
      rw [AggregateOf, Explained, ← allShow_iff, iff_self_and]
      exact fun all rows member => ((coherent rows member).pending (shows all rows member)).1
  | completed =>
      rw [AggregateOf, Explained, ← allShow_iff, iff_self_and]
      intro all rows member
      have shown := ((coherent rows member).consistent rows.variants).completed (all.2 rows member)
      exact ⟨shown.1, shown.2.2⟩
  | failed =>
      rw [AggregateOf, Explained, ← allShow_iff, iff_self_and]
      exact fun all rows member =>
        ((coherent rows member).consistent rows.variants).retry.mpr (all.2 rows member)
  | partiallyCompleted =>
      rw [AggregateOf, Explained]
      refine and_congr ?_ ?_
      · rw [List.mem_map, not_exists]
        refine forall_congr' fun rows => ?_
        rw [not_and]
        refine imp_congr_right fun member => ?_
        rw [← (leased rows member).token, Option.not_isSome_iff_eq_none]
      · simp only [List.mem_map, exists_exists_and_eq_and]
        refine exists_congr fun first => and_congr_right fun _ => exists_congr fun second =>
          and_congr_right fun _ => ?_
        exact ProcessingStatus.text_injective.ne_iff.symm

end Aggregates

/-- What the responses say about the platform. -/
structure PresentationLaw (m : Machine State Event) : Prop where
  consistent : ∀ s, m.Reachable Machine.anything s → ∀ mediaId rows,
    s.stored mediaId = some rows → (presentMedia rows.media rows.variants).Consistent
  /-- The retry of a media with a link succeeds under every spelling of its id. -/
  offered : ∀ s, m.Reachable Machine.anything s → ∀ id rows,
    s.stored (uuidColumn id) = some rows →
    (presentMedia rows.media rows.variants).links.retry.isSome = true →
    s.locks (uuidColumn id) = none → ∀ r, s.retries r = .idle → ∀ dispatchId position,
    dispatchId ∉ s.outbox.created →
    ∃ t rows', m.execute Machine.anything s (soloRetry r id dispatchId position) = some t ∧
      t.retries r = .returned rows'.media ∧ t.stored (uuidColumn id) = some rows' ∧
      (presentMedia rows'.media rows'.variants).processingStatus = "PENDING" ∧
      rows'.media.processingGeneration = rows.media.processingGeneration + 1 ∧
      (presentMedia rows'.media rows'.variants).lastError.isSome = false
  withheld : ∀ s, m.Reachable Machine.anything s → ∀ id rows,
    s.stored (uuidColumn id) = some rows →
    (presentMedia rows.media rows.variants).links.retry.isSome = false →
    ∀ r, s.retries r = .idle →
    ∃ t, m.execute Machine.anything s [.begin r id, .read r] = some t ∧
      t.retries r = .rejected mediaRetryNotAllowed ∧ t.stored = s.stored ∧ t.outbox = s.outbox
  posts : ∀ s, m.Reachable Machine.anything s → ∀ (post : Post) (stored : List Rows),
    (∀ rows ∈ stored, s.stored rows.media.id = some rows) → ∀ aggregate : PostAggregateStatus,
    (presentPost post (stored.map (·.media))).aggregateStatus = aggregate.text ↔
      Explained stored aggregate

/-- In every state of the platform the responses are consistent, and the retry link is offered
exactly where a retry is accepted. -/
theorem presentation_law (settings : Outbox.Settings) : PresentationLaw (machine settings) where
  consistent s reached mediaId rows present :=
    (coherent_of_reachable reached mediaId rows present).consistent rows.variants
  offered s reached id rows present link unlocked r idle dispatchId position fresh := by
    have coherent := coherent_of_reachable reached (uuidColumn id) rows present
    have failed : rows.media.processingStatus = .failed :=
      ProcessingStatus.text_injective ((coherent.consistent rows.variants).retry.mp link)
    obtain ⟨t, ran, returned, stored⟩ :=
      @soloRetry_failed settings s rows r id dispatchId position idle present unlocked fresh failed
    exact ⟨t, _, ran, returned, stored, rfl, rfl, rfl⟩
  withheld s reached id rows present link r idle := by
    have coherent := coherent_of_reachable reached (uuidColumn id) rows present
    apply soloRetry_refused idle present
    intro failed
    have offered := (coherent.consistent rows.variants).retry.mpr
      (congrArg ProcessingStatus.text failed)
    rw [link] at offered
    cases offered
  posts s reached post stored present aggregate := by
    rw [← explained_iff (fun rows member =>
        ((sound_of_reachable reached).media _ rows (present rows member)).leased)
      fun rows member => coherent_of_reachable reached _ rows (present rows member),
      ← calculatePostAggregateStatus_eq_iff]
    have described : (presentPost post (stored.map (·.media))).aggregateStatus =
        (calculatePostAggregateStatus (stored.map (·.media.processingStatus))).text := by
      rw [presentPost, List.map_map]
      rfl
    rw [described]
    exact ⟨fun shown => PostAggregateStatus.text_injective shown, fun same => congrArg _ same⟩

end PostsMedia.Platform
