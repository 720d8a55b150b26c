import PostsMedia.Platform.Generations

namespace PostsMedia.Platform

open Processing (Rows)

variable {settings : Outbox.Settings} {s t : State} {event : Event}

/-- The client of every retry writes the media id as its column does. -/
def SpelledAsStored (_ : State) : Event → Prop
  | .begin _ id => uuidColumn id = id
  | _ => True

instance (s : State) (event : Event) : Decidable (SpelledAsStored s event) := by
  unfold SpelledAsStored
  split <;> infer_instance

/-- The columns of the dispatch are those of its payload. -/
def Spelled (dispatch : ProcessingDispatch) : Prop :=
  ∃ payload : MediaJobPayloadV1, dispatch = .ofPayload payload

/-- The retry writes the media id as its column does. -/
def PhaseSpelled : RetryPhase → Prop
  | .reading id | .updating id _ | .creating id _ _ => uuidColumn id = id
  | .committing _ _ dispatch => Spelled dispatch
  | _ => True

/-- Every producer spells the media id as its column does. -/
structure AllSpelled (s : State) : Prop where
  stored : ∀ mediaId rows, s.stored mediaId = some rows → ∀ dispatch ∈ rows.dispatches,
    Spelled dispatch
  retries : ∀ r, PhaseSpelled (s.retries r)

/-- A built dispatch with the columns of its payload passes the checks of its publication with the
type of its own media. -/
theorem checked_of_built {media : Media} {dispatch : ProcessingDispatch}
    (built : BuiltFor media dispatch) (spelled : Spelled dispatch) : ∃ payload,
      dispatch.checked = .ok payload ∧ dispatch.payload = payload.toJson ∧
      payload.mediaType = media.mediaType := by
  obtain ⟨id, dispatchId, _, equal⟩ := built
  obtain ⟨payload, rfl⟩ := spelled
  have documents : payload.toJson = (jobPayload media id dispatchId payload.generation).toJson :=
    congrArg (·.payload) equal
  have named : payload.mediaId = media.id := congrArg (·.mediaId) equal
  refine ⟨jobPayload media id dispatchId payload.generation, ?_, documents, rfl⟩
  have same : ProcessingDispatch.ofPayload payload =
      .ofPayload (jobPayload media id dispatchId payload.generation) := by
    have spelling : id = media.id := by
      simp only [MediaJobPayloadV1.toJson, Json.obj.injEq, List.cons.injEq, Prod.mk.injEq,
        Json.str.injEq, true_and] at documents
      exact documents.2.2.1.symm.trans named
    exact equal.trans (by rw [← spelling]; rfl)
  rw [same]
  exact ProcessingDispatch.checked_ofPayload _ rfl rfl

theorem spelled_retryDispatch (media : Media) {id : String} (own : uuidColumn id = id)
    (dispatchId : String) : Spelled (Processing.retryDispatch media id dispatchId) := by
  rw [Spelled, Processing.retryDispatch, own]
  exact ⟨{ dispatchId, mediaId := id, postId := media.postId, mediaType := media.mediaType,
           generation := media.processingGeneration + 1,
           processingProfile := media.processingProfile, reason := .manualRetry }, rfl⟩

theorem AllSpelled.phases (spelled : AllSpelled s) {r : RetryId} {phase : RetryPhase}
    (own : PhaseSpelled phase) : ∀ q, PhaseSpelled (Function.update s.retries r phase q) := by
  intro q
  by_cases same : q = r
  · rw [same, Function.update_self]
    exact own
  · rw [Function.update_of_ne same]
    exact spelled.retries q

/-- A retry that writes nothing only has to spell its own id. -/
theorem AllSpelled.move (spelled : AllSpelled s) {r : RetryId} {phase : RetryPhase}
    (stored : t.stored = s.stored) (changed : t.retries = Function.update s.retries r phase)
    (own : PhaseSpelled phase) : AllSpelled t :=
  ⟨stored ▸ spelled.stored, changed ▸ spelled.phases own⟩

theorem AllSpelled.upload (spelled : AllSpelled s) {postId : String} {start : Nat}
    {promoted : List PromotedUpload} (positions : String → Nat)
    (distinct : (promoted.map (·.mediaId)).Nodup) :
    AllSpelled (s.upload (createAllWithDispatch postId start promoted) positions) := by
  have ids := (createAllWithDispatch_ids postId start promoted).1
  refine ⟨fun mediaId rows present dispatch member => ?_, fun q => ?_⟩
  · by_cases new : mediaId ∈ (createAllWithDispatch postId start promoted).map (·.1.id)
    · obtain ⟨pair, created, rfl⟩ := List.mem_map.mp new
      rw [upload_stored_of_mem (by rw [ids]; exact distinct) created] at present
      cases present
      obtain ⟨input, rfl⟩ := mem_createAllWithDispatch created
      exact ⟨_, List.mem_singleton.mp member⟩
    · rw [upload_stored_of_absent new] at present
      exact spelled.stored mediaId rows present dispatch member
  · rw [(upload_retries (createAllWithDispatch postId start promoted) positions).1]
    exact spelled.retries q

/-- New rows of one media keep the spelling when their dispatches do. -/
theorem AllSpelled.store (spelled : AllSpelled s) {mediaId : String} {rows : Rows}
    (stored : t.stored = Function.update s.stored mediaId (some rows))
    (own : ∀ dispatch ∈ rows.dispatches, Spelled dispatch)
    (retries : ∀ r, PhaseSpelled (t.retries r)) : AllSpelled t := by
  refine ⟨fun name found present => ?_, retries⟩
  rw [stored] at present
  by_cases same : name = mediaId
  · simp only [same, Function.update_self, Option.some.injEq] at present
    exact present ▸ own
  · rw [Function.update_of_ne same] at present
    exact spelled.stored name found present

/-- The commit of a retry adds a dispatch with its own spelling. -/
theorem AllSpelled.commit (spelled : AllSpelled s) {r : RetryId} {phase : RetryPhase} {id : String}
    {rows : Rows} {updated : Media} {dispatch : ProcessingDispatch}
    (present : s.stored (uuidColumn id) = some rows) (own : Spelled dispatch)
    (stored : t.stored = Function.update s.stored (uuidColumn id) (some { rows with
      media := updated
      dispatches := rows.dispatches ++ [dispatch] }))
    (changed : t.retries = Function.update s.retries r phase) (ended : PhaseSpelled phase) :
    AllSpelled t := by
  refine spelled.store stored (fun other member => ?_) (changed ▸ spelled.phases ended)
  rcases List.mem_append.mp member with old | new
  · exact spelled.stored _ rows present other old
  · rw [List.mem_singleton.mp new]
    exact own

/-- Every step of retries that are spelled so keeps the spelling. -/
theorem allSpelled_step (sound : Sound s) (spelled : AllSpelled s)
    (admitted : SpelledAsStored s event) (taken : step settings s event = some t) :
    AllSpelled t := by
  cases effect_of_step taken with
  | upload fresh => exact spelled.upload _ fresh.1
  | @work mediaId worker rows present _ =>
      refine spelled.store rfl ?_ spelled.retries
      rw [(worker_frame (sound.media mediaId rows present).leased worker).2.2.2]
      exact spelled.stored mediaId rows present
  | begin => exact spelled.move rfl rfl admitted
  | @read r _ _ started _ _ =>
      have own := spelled.retries r
      rw [started] at own
      exact spelled.move rfl rfl own
  | @lock r _ _ _ started _ _ _ _ =>
      have own := spelled.retries r
      rw [started] at own
      exact spelled.move rfl rfl own
  | @create r _ dispatchId current _ started =>
      have own := spelled.retries r
      rw [started] at own
      exact spelled.move rfl rfl (spelled_retryDispatch current own dispatchId)
  | @commit r _ _ _ _ _ _ phase started present _ _ answer =>
      have own := spelled.retries r
      rw [started] at own
      have ended : PhaseSpelled phase := by
        rcases answer with rfl | rfl
        · trivial
        · trivial
      exact spelled.commit present own rfl rfl ended
  | reject | lose | rollback => exact spelled.move rfl rfl trivial
  | outbox => exact ⟨spelled.stored, spelled.retries⟩

theorem allSpelled_of_reachable (reached : (machine settings).Reachable SpelledAsStored s) :
    AllSpelled s := by
  apply reached.strengthen Sound (fun _ => sound_of_reachable)
  · intro start initial
    obtain ⟨_, absent, _, idle, _⟩ := initial
    refine ⟨fun mediaId rows present => ?_, fun r => ?_⟩
    · rw [absent mediaId] at present
      cases present
    · rw [idle r]
      trivial
  · exact fun _ _ _ sound _ admitted taken spelled =>
      allSpelled_step sound spelled admitted taken

/-- What the producers write is what the publication accepts and adds. -/
structure Agreement (m : Machine State Event) (guard : State → Event → Prop) : Prop where
  written : ∀ s, m.Reachable guard s → ∀ mediaId rows, s.stored mediaId = some rows →
    ∀ dispatch ∈ rows.dispatches, ∃ payload, dispatch.checked = .ok payload ∧
      dispatch.payload = payload.toJson ∧ payload.mediaType = rows.media.mediaType ∧
      dispatch.queueName = queueNameFor rows.media.mediaType
  present : ∀ s, m.Reachable guard s → ∀ dispatch ∈ s.outbox.rows,
    dispatch.status ≠ .dead ∧ ∃ rows, s.stored dispatch.mediaId = some rows ∧ ∃ payload,
      dispatch.checked = .ok payload ∧ payload.mediaType = rows.media.mediaType ∧
      dispatch.queueName = queueNameFor rows.media.mediaType
  alive : ∀ s, m.Reachable guard s → ∀ token id dispatch message,
    s.outbox.publications token id ≠ .dying dispatch message
  /-- A publication that reaches Redis adds the job of its dispatch to the queue of its media. -/
  added : ∀ s, m.Reachable guard s → ∀ token id dispatch,
    s.outbox.publications token id = .claimed dispatch → ∀ error, ∃ t job rows,
      m.step s (.outbox (.add token id .ok error)) = some t ∧
      t.outbox.publications token id = .added dispatch ∧
      t.outbox.queued = s.outbox.queued ++ [job] ∧ job.Carries dispatch ∧
      s.stored dispatch.mediaId = some rows ∧ job.queueName = queueNameFor rows.media.mediaType
  published : ∀ s, m.Reachable guard s → ∀ dispatch ∈ s.outbox.rows,
    dispatch.status = .published → ∃ job ∈ s.outbox.queued, job.Carries dispatch ∧
      ∃ rows, s.stored dispatch.mediaId = some rows ∧
        job.queueName = queueNameFor rows.media.mediaType
  queued : ∀ s, m.Reachable guard s → ∀ job ∈ s.outbox.queued, ∃ mediaId rows,
    s.stored mediaId = some rows ∧ (∃ dispatch ∈ rows.dispatches, job.Carries dispatch) ∧
      job.queueName = queueNameFor rows.media.mediaType

/-- A produced dispatch passes the checks of its publication. -/
theorem Produced.checked (sound : Sound s) (spelled : AllSpelled s)
    {dispatch : ProcessingDispatch} (produced : Produced s dispatch) :
    ∃ rows, s.stored dispatch.mediaId = some rows ∧ ∃ payload, dispatch.checked = .ok payload ∧
      payload.mediaType = rows.media.mediaType ∧
      dispatch.queueName = queueNameFor rows.media.mediaType := by
  obtain ⟨rows, present, written, member, same⟩ := produced
  have built := (sound.media _ rows present).built written member
  obtain ⟨payload, checked, _, mediaType⟩ :=
    checked_of_built built (spelled.stored _ rows present written member)
  exact ⟨rows, present, payload, same.checked ▸ checked, mediaType,
    same.queueName ▸ queueName_of_built built⟩

/-- Both producers agree with the publication in every run whose retries are spelled so. -/
theorem platform_agreement (settings : Outbox.Settings) :
    Agreement (machine settings) SpelledAsStored where
  written s reached mediaId rows present dispatch member := by
    have built := ((sound_of_reachable reached).media mediaId rows present).built dispatch member
    have spelled := (allSpelled_of_reachable reached).stored mediaId rows present dispatch member
    obtain ⟨payload, checked, document, mediaType⟩ := checked_of_built built spelled
    exact ⟨payload, checked, document, mediaType, queueName_of_built built⟩
  present s reached dispatch member := by
    obtain ⟨produced, refused⟩ := (outboxSound_of_reachable reached).2.rows dispatch member
    obtain ⟨rows, stored, payload, checked, agrees⟩ :=
      produced.checked (sound_of_reachable reached) (allSpelled_of_reachable reached)
    exact ⟨fun dead => refused dead payload checked, rows, stored, payload, checked, agrees⟩
  alive s reached token id dispatch message dying := by
    have mine := (outboxSound_of_reachable reached).2.publications token id
    rw [dying] at mine
    obtain ⟨_, _, payload, checked, _⟩ :=
      mine.1.checked (sound_of_reachable reached) (allSpelled_of_reachable reached)
    exact mine.2 payload checked
  added s reached token id dispatch claimed error := by
    have mine := (outboxSound_of_reachable reached).2.publications token id
    rw [claimed] at mine
    obtain ⟨rows, stored, payload, checked, mediaType, _⟩ :=
      Produced.checked (sound_of_reachable reached) (allSpelled_of_reachable reached) mine
    have taken := @Outbox.step_add_of_checked settings _ _ _ _ _ claimed checked error
    refine ⟨{ s with outbox := _ }, ⟨queueNameFor payload.mediaType, dispatch.jobName,
      dispatch.payload, dispatch.jobId⟩, rows, congrArg (Option.map _) taken, ?_, rfl,
      Outbox.carries_of_checked checked, stored, ?_⟩
    · simp [Outbox.State.publishing]
    · rw [mediaType]
  published s reached dispatch member done := by
    obtain ⟨table, within⟩ := outboxSound_of_reachable reached
    obtain ⟨job, queued, carries⟩ := (table.healthy dispatch member).published done
    obtain ⟨rows, stored, _, _, _, queueName⟩ := (within.rows dispatch member).1.checked
      (sound_of_reachable reached) (allSpelled_of_reachable reached)
    exact ⟨job, queued, carries, rows, stored, carries.queueName.trans queueName⟩
  queued s reached job member := by
    obtain ⟨dispatch, ⟨rows, present, built, inside, same⟩, carries⟩ :=
      (outboxSound_of_reachable reached).2.queued job member
    have genuine := ((sound_of_reachable reached).media _ rows present).built built inside
    refine ⟨_, rows, present, ⟨built, inside, ?_⟩, ?_⟩
    · exact ⟨carries.queueName.trans same.queueName.symm, carries.jobName.trans same.jobName.symm,
        carries.payload.trans same.payload.symm, carries.jobId.trans same.jobId.symm⟩
    · exact (carries.queueName.trans same.queueName.symm).trans (queueName_of_built genuine)

/-- The image has a generated id. -/
def identifiedPromoted : PromotedUpload :=
  { samplePromoted with mediaId := "00000000-0000-4000-8000-00000000000a" }

/-- The image fails, a client retries it under this spelling of its id, and a dispatcher hands both
dispatches out. -/
def toRepublication (id : String) : List Event :=
  [.upload "post-0" 0 [identifiedPromoted] (fun _ => 0),
    .work identifiedPromoted.mediaId (.claim 1 "job" 60 0 0),
    .work identifiedPromoted.mediaId
      (.operate (.fail "attempt-0" true "PROCESSING_FAILED" "Processing failed") 1 0 0),
    .begin 0 id, .read 0, .update 0, .create 0 "dispatch-1", .commit 0 1 .ok,
    .outbox (.begin 0), .outbox (.claim 0 [] .ok)]

/-- Both generations of the image come to the queue of the images. -/
theorem image_republished : ∃ s,
    (machine Outbox.sampleSettings).Reachable SpelledAsStored s ∧
      s.outbox.rows.map (fun dispatch => (dispatch.generation, dispatch.status)) =
        [(1, .published), (2, .published)] ∧
      s.outbox.queued.map (·.queueName) = ["image-processing", "image-processing"] ∧
      ∀ dispatch ∈ s.outbox.rows, ∃ job ∈ s.outbox.queued, job.Carries dispatch := by
  obtain ⟨s, reached, observed⟩ := (machine Outbox.sampleSettings).reachable_of_observed
    SpelledAsStored (fun s => (s.outbox.rows.map fun dispatch =>
      (dispatch.generation, dispatch.status), s.outbox.queued.map (·.queueName)))
    ([(1, .published), (2, .published)], ["image-processing", "image-processing"])
    (toRepublication "00000000-0000-4000-8000-00000000000a" ++
      [.outbox (.add 0 "dispatch-0" .ok ""), .outbox (.markPublished 0 "dispatch-0" 0 .ok ""),
        .outbox (.add 0 "dispatch-1" .ok ""), .outbox (.markPublished 0 "dispatch-1" 0 .ok "")])
    (emptyPlatform_initial _) (by decide)
  rw [Prod.mk.injEq] at observed
  refine ⟨s, reached, observed.1, observed.2, fun dispatch member => ?_⟩
  have status : (dispatch.generation, dispatch.status) ∈ s.outbox.rows.map fun dispatch =>
      (dispatch.generation, dispatch.status) := List.mem_map_of_mem member
  have done : dispatch.status = .published := by
    rw [observed.1] at status
    simp only [List.mem_cons, Prod.mk.injEq, List.not_mem_nil, or_false] at status
    exact status.elim (·.2) (·.2)
  obtain ⟨job, queued, carries, _⟩ :=
    (platform_agreement Outbox.sampleSettings).published s reached dispatch member done
  exact ⟨job, queued, carries⟩

/-- The client writes the id in upper-case digits. The publication refuses the dispatch of the
retry and gives it up. -/
theorem image_mappedDead :
    ¬ Agreement (machine Outbox.sampleSettings) Machine.anything := by
  intro agreement
  obtain ⟨s, reached, observed⟩ := (machine Outbox.sampleSettings).reachable_of_observed
    Machine.anything (fun s => s.outbox.rows.map (·.status)) [.publishing, .dead]
    (toRepublication "00000000-0000-4000-8000-00000000000A" ++
      [.outbox (.add 0 "dispatch-1" .ok ""), .outbox (.markDead 0 "dispatch-1" .ok)])
    (emptyPlatform_initial _) (by decide)
  have dead : DispatchStatus.dead ∈ s.outbox.rows.map (·.status) := by
    rw [observed]
    exact List.mem_cons_of_mem _ (List.mem_singleton_self _)
  obtain ⟨dispatch, member, status⟩ := List.mem_map.mp dead
  exact (agreement.present s reached dispatch member).1 status

end PostsMedia.Platform
