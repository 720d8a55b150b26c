import PostsMedia.Processing.Turns

namespace PostsMedia.Processing

variable {fleet : Fleet} {s t : FleetState} {generation : Nat}

/-- The media has moved on from the generation, or the generation needs no more work. -/
def Over (media : Media) (generation : Nat) : Prop :=
  generation = media.processingGeneration → media.processingStatus.finished = true

/-- The generation has a live job, or it is over. -/
def Safe (media : Media) (jobs : String → Job) (generation : Nat) : Prop :=
  (jobs (mediaJobId media.id generation)).live = true ∨ Over media generation

/-- A job belongs to its generation, and an end that the queue has not seen yet is final. -/
def JobSound (fleet : Fleet) (media : Media) (executions : ExecutionId → Phase)
    (generation : Nat) : Job → Prop
  | .absent => True
  | .waiting payload _ => payload.mediaId = media.id ∧ payload.generation = generation ∧
      generation ≤ media.processingGeneration
  | .active payload attemptsMade x => payload.mediaId = media.id ∧
      payload.generation = generation ∧ generation ≤ media.processingGeneration ∧
      executions x ≠ .idle ∧
      (∀ delivery, (executions x).delivery = some delivery → delivery = (payload, attemptsMade)) ∧
      (executions x = .returned ∨
        executions x = .threw ∧ LastAttempt fleet.toDeployment attemptsMade →
        Over media generation)
  | .completed | .failed => generation ≤ media.processingGeneration ∧ Over media generation

/-- A dispatch is one that a producer built for a generation of the media. -/
def Genuine (fleet : Fleet) (media : Media) (dispatch : ProcessingDispatch) : Prop :=
  ∃ payload : MediaJobPayloadV1, dispatch.Same (.ofPayload payload) ∧ payload.payloadVersion = 1 ∧
    payload.processingProfile = "balanced-v1" ∧ payload.mediaId = media.id ∧
    payload.dispatchId = fleet.dispatchName payload.generation ∧
    payload.generation ≤ media.processingGeneration

/-- A publication that has added its job knows that its generation is safe. -/
def PublisherSound (fleet : Fleet) (media : Media) (jobs : String → Job) : Publisher → Prop
  | .idle | .ended => True
  | .claimed dispatch | .retrying dispatch _ _ => Genuine fleet media dispatch
  | .added dispatch => Genuine fleet media dispatch ∧ Safe media jobs dispatch.generation
  | .dying _ _ => False

/-- The present generation still has an open dispatch. -/
def Pending (media : Media) (dispatches : List ProcessingDispatch) : Prop :=
  ∃ dispatch ∈ dispatches, dispatch.generation = media.processingGeneration ∧
    dispatch.isOpen = true

/-- The outbox, the queue and the executions agree on every generation. -/
structure Steady (fleet : Fleet) (s : FleetState) : Prop where
  invariant : Invariant fleet.toDeployment s.system
  profile : s.media.processingProfile = "balanced-v1"
  jobs : ∀ jobId, s.jobs jobId ≠ .absent → ∃ generation,
    jobId = mediaJobId s.media.id generation ∧
      JobSound fleet s.media s.system.executions generation (s.jobs jobId)
  executions : ∀ x payload attemptsMade,
    (s.system.executions x).delivery = some (payload, attemptsMade) →
      s.job payload.generation = .active payload attemptsMade x ∧
        ((s.system.executions x).claimed = true → Owns s.system.rows x payload)
  dispatches : ∀ dispatch ∈ s.dispatches, Genuine fleet s.media dispatch
  publishers : ∀ token dispatchId,
    PublisherSound fleet s.media s.jobs (s.publishers token dispatchId)
  current : Pending s.media s.dispatches ∨ Safe s.media s.jobs s.media.processingGeneration

section Genuine

variable {media after : Media} {dispatch other : ProcessingDispatch}

theorem Genuine.generation_le (genuine : Genuine fleet media dispatch) :
    dispatch.generation ≤ media.processingGeneration := by
  obtain ⟨payload, same, _, _, _, _, old⟩ := genuine
  rw [same.generation]
  exact old

/-- A genuine dispatch passes the checks of its publication. -/
theorem Genuine.checked (genuine : Genuine fleet media dispatch) : ∃ payload,
    dispatch.checked = .ok payload ∧ payload.mediaId = media.id ∧
      payload.generation = dispatch.generation ∧
      dispatch.jobId = mediaJobId media.id dispatch.generation := by
  obtain ⟨payload, same, version, profile, owner, _, _⟩ := genuine
  refine ⟨payload, ?_, owner, same.generation.symm, ?_⟩
  · rw [same.checked]
    exact ProcessingDispatch.checked_ofPayload payload version profile
  · rw [same.jobId, same.generation, ← owner]
    rfl

/-- The id of a genuine dispatch names its generation. -/
theorem Genuine.generation_inj (genuine : Genuine fleet media dispatch)
    (genuine' : Genuine fleet media other) (ids : dispatch.id = other.id) :
    dispatch.generation = other.generation := by
  obtain ⟨payload, same, _, _, _, name, _⟩ := genuine
  obtain ⟨payload', same', _, _, _, name', _⟩ := genuine'
  rw [same.generation, same'.generation]
  apply fleet.dispatchName_injective
  have first : dispatch.id = payload.dispatchId := same.id
  have second : other.id = payload'.dispatchId := same'.id
  show fleet.dispatchName payload.generation = fleet.dispatchName payload'.generation
  rw [← name, ← name', ← first, ← second, ids]

theorem Genuine.same (genuine : Genuine fleet media other) (same : dispatch.Same other) :
    Genuine fleet media dispatch := by
  obtain ⟨payload, built, rest⟩ := genuine
  exact ⟨payload, same.trans built, rest⟩

theorem Genuine.later (genuine : Genuine fleet media dispatch) (id : media.id = after.id)
    (later : media.processingGeneration ≤ after.processingGeneration) :
    Genuine fleet after dispatch := by
  obtain ⟨payload, same, version, profile, owner, name, old⟩ := genuine
  exact ⟨payload, same, version, profile, owner.trans id, name, Nat.le_trans old later⟩

/-- A publisher stays sound while its generations stay safe. -/
theorem PublisherSound.later {jobs jobs' : String → Job} {publisher : Publisher}
    (sound : PublisherSound fleet media jobs publisher) (id : media.id = after.id)
    (later : media.processingGeneration ≤ after.processingGeneration)
    (safe : ∀ generation ≤ media.processingGeneration,
      Safe media jobs generation → Safe after jobs' generation) :
    PublisherSound fleet after jobs' publisher := by
  cases publisher with
  | idle | ended => trivial
  | claimed dispatch => exact Genuine.later sound id later
  | retrying dispatch => exact Genuine.later sound id later
  | added dispatch => exact ⟨sound.1.later id later, safe _ sound.1.generation_le sound.2⟩
  | dying => exact sound

end Genuine

/-- A job stays sound while its own execution does not move and its generation stays over. -/
theorem JobSound.later {media after : Media} {executions executions' : ExecutionId → Phase}
    {job : Job} (sound : JobSound fleet media executions generation job) (id : media.id = after.id)
    (later : media.processingGeneration ≤ after.processingGeneration)
    (past : generation ≤ media.processingGeneration → Over media generation →
      Over after generation)
    (same : ∀ payload attemptsMade x, job = .active payload attemptsMade x →
      executions' x = executions x) : JobSound fleet after executions' generation job := by
  cases job with
  | absent => trivial
  | waiting =>
      obtain ⟨owner, ofGeneration, old⟩ := sound
      exact ⟨owner.trans id, ofGeneration, Nat.le_trans old later⟩
  | active payload attemptsMade x =>
      obtain ⟨owner, ofGeneration, old, started, deliveries, ended⟩ := sound
      simp only [JobSound, same payload attemptsMade x rfl]
      exact ⟨owner.trans id, ofGeneration, Nat.le_trans old later, started, deliveries,
        fun ends => past old (ended ends)⟩
  | completed | failed =>
      obtain ⟨old, before⟩ := sound
      exact ⟨Nat.le_trans old later, past old before⟩

/-- The job of an execution in flight is its own. -/
theorem Steady.job_of_delivery (steady : Steady fleet s) {x : ExecutionId}
    {payload : MediaJobPayloadV1} {attemptsMade : Nat}
    (delivery : (s.system.executions x).delivery = some (payload, attemptsMade)) :
    s.jobs (mediaJobId s.media.id payload.generation) = .active payload attemptsMade x :=
  (steady.executions x payload attemptsMade delivery).1

/-- A job that the queue knows belongs to the generation of its id. -/
theorem Steady.job_sound (steady : Steady fleet s) (generation : Nat) :
    JobSound fleet s.media s.system.executions generation
      (s.jobs (mediaJobId s.media.id generation)) := by
  by_cases absent : s.jobs (mediaJobId s.media.id generation) = .absent
  · rw [absent]
    trivial
  · obtain ⟨other, same, sound⟩ := steady.jobs _ absent
    rw [mediaJobId_inj same] at sound ⊢
    exact sound

/-- A change of the rows and the executions keeps the state steady when the jobs stay sound and the
generations that were safe stay so. -/
theorem Steady.progress (steady : Steady fleet s) {system : State}
    (invariant : Invariant fleet.toDeployment system)
    (same : SameMedia s.media system.rows.media)
    (later : s.media.processingGeneration ≤ system.rows.media.processingGeneration)
    (jobs : ∀ generation, JobSound fleet system.rows.media system.executions generation
      (s.jobs (mediaJobId s.media.id generation)))
    (executions : ∀ x payload attemptsMade,
      (system.executions x).delivery = some (payload, attemptsMade) →
        s.job payload.generation = .active payload attemptsMade x ∧
          ((system.executions x).claimed = true → Owns system.rows x payload))
    (dispatches : ∀ dispatch ∈ system.rows.dispatches,
      dispatch ∈ s.dispatches ∨ Genuine fleet system.rows.media dispatch)
    (safe : ∀ generation ≤ s.media.processingGeneration, Safe s.media s.jobs generation →
      Safe system.rows.media s.jobs generation)
    (current : Pending system.rows.media system.rows.dispatches ∨
      Safe system.rows.media s.jobs system.rows.media.processingGeneration) :
    Steady fleet { s with system := system } where
  invariant := invariant
  profile := same.profile.symm.trans steady.profile
  jobs jobId present := by
    obtain ⟨generation, rfl, _⟩ := steady.jobs jobId present
    exact ⟨generation, congrArg (mediaJobId · generation) same.id, jobs generation⟩
  executions x payload attemptsMade delivery := by
    obtain ⟨active, owns⟩ := executions x payload attemptsMade delivery
    refine ⟨?_, owns⟩
    show s.jobs (mediaJobId system.rows.media.id payload.generation) = _
    rw [← same.id]
    exact active
  dispatches dispatch member := by
    rcases dispatches dispatch member with old | genuine
    · exact (steady.dispatches dispatch old).later same.id later
    · exact genuine
  publishers token dispatchId := (steady.publishers token dispatchId).later same.id later safe
  current := current

/-- The present generation keeps its dispatch or its safety while it stays the present one. -/
theorem Steady.current_of_same (steady : Steady fleet s) {rows : Rows}
    (generation : rows.media.processingGeneration = s.media.processingGeneration)
    (dispatches : rows.dispatches = s.dispatches)
    (safe : ∀ generation, Safe s.media s.jobs generation → Safe rows.media s.jobs generation) :
    Pending rows.media rows.dispatches ∨
      Safe rows.media s.jobs rows.media.processingGeneration := by
  rw [generation, dispatches]
  rcases steady.current with ⟨dispatch, member, current, isOpen⟩ | before
  · exact .inl ⟨dispatch, member, current.trans generation.symm, isOpen⟩
  · exact .inr (safe _ before)

section Outbox

/-- An outbox statement keeps the open dispatch of the present generation, or it is safe. -/
theorem Steady.storing (steady : Steady fleet s) {dispatches : List ProcessingDispatch}
    (kept : ∀ dispatch ∈ dispatches, ∃ old ∈ s.dispatches, dispatch.Same old)
    (stays : Pending s.media s.dispatches → Pending s.media dispatches ∨
      Safe s.media s.jobs s.media.processingGeneration) : Steady fleet (s.storing dispatches) where
  invariant := steady.invariant.storing dispatches
  profile := steady.profile
  jobs := steady.jobs
  executions := steady.executions
  dispatches dispatch member := by
    obtain ⟨old, present, same⟩ := kept dispatch member
    exact (steady.dispatches old present).same same
  publishers := steady.publishers
  current := by
    rcases steady.current with pending | safe
    · exact stays pending
    · exact .inr safe

/-- A publication moves to a sound program point. -/
theorem Steady.publishing (steady : Steady fleet s) (publisher : Publisher)
    (sound : PublisherSound fleet s.media s.jobs publisher) (token : LeaseToken)
    (dispatchId : String) : Steady fleet (s.publishing token dispatchId publisher) where
  invariant := steady.invariant
  profile := steady.profile
  jobs := steady.jobs
  executions := steady.executions
  dispatches := steady.dispatches
  publishers token' dispatchId' := by
    show PublisherSound fleet s.media s.jobs (Function.update s.publishers token
      (Function.update (s.publishers token) dispatchId publisher) token' dispatchId')
    by_cases sameToken : token' = token
    · subst sameToken
      by_cases sameId : dispatchId' = dispatchId
      · subst sameId
        simpa using sound
      · simpa [sameId] using steady.publishers token' dispatchId'
    · simpa [sameToken] using steady.publishers token' dispatchId'
  current := steady.current

/-- A change of one job keeps the safety of every generation. -/
theorem safe_queueing {jobId : String} {job : Job}
    (safe : ∀ generation, jobId = mediaJobId s.media.id generation →
      (s.jobs jobId).live = true → job.live = true ∨ Over s.media generation)
    (before : Safe s.media s.jobs generation) :
    Safe s.media (Function.update s.jobs jobId job) generation := by
  rcases before with live | past
  · by_cases same : mediaJobId s.media.id generation = jobId
    · rw [same] at live
      rcases safe generation same.symm live with live' | past
      · exact .inl (by rw [same, Function.update_self]; exact live')
      · exact .inr past
    · exact .inl (by rw [Function.update_of_ne same]; exact live)
  · exact .inr past

/-- The queue changes a job that no execution in flight works on. -/
theorem Steady.queueing (steady : Steady fleet s) {jobId : String} {job : Job}
    (sound : job ≠ .absent → ∃ generation, jobId = mediaJobId s.media.id generation ∧
      JobSound fleet s.media s.system.executions generation job)
    (safe : ∀ generation, jobId = mediaJobId s.media.id generation →
      (s.jobs jobId).live = true → job.live = true ∨ Over s.media generation)
    (kept : ∀ x payload attemptsMade, s.jobs jobId = .active payload attemptsMade x →
      (s.system.executions x).delivery = some (payload, attemptsMade) →
        job = .active payload attemptsMade x) : Steady fleet (s.queueing jobId job) where
  invariant := steady.invariant
  profile := steady.profile
  jobs other present := by
    by_cases same : other = jobId
    · subst same
      simp only [FleetState.queueing, Function.update_self] at present ⊢
      exact sound present
    · simp only [FleetState.queueing, Function.update_of_ne same] at present ⊢
      exact steady.jobs other present
  executions x payload attemptsMade delivery := by
    obtain ⟨active, owns⟩ := steady.executions x payload attemptsMade delivery
    refine ⟨?_, owns⟩
    by_cases same : mediaJobId s.media.id payload.generation = jobId
    · have old : s.jobs jobId = .active payload attemptsMade x := same ▸ active
      have fresh := kept x payload attemptsMade old delivery
      simp only [FleetState.job, FleetState.queueing, FleetState.media] at same ⊢
      rw [same, Function.update_self, fresh]
    · simp only [FleetState.job, FleetState.queueing, FleetState.media] at same active ⊢
      rw [Function.update_of_ne same, active]
  dispatches := steady.dispatches
  publishers token dispatchId :=
    (steady.publishers token dispatchId).later rfl (Nat.le_refl _) fun _ _ before =>
      safe_queueing safe before
  current := by
    rcases steady.current with pending | before
    · exact .inl pending
    · exact .inr (safe_queueing safe before)

/-- An update by the owner of a dispatch keeps its fixed columns. -/
theorem updateOwned_kept {dispatches : List ProcessingDispatch} {id : String} {token : LeaseToken}
    {change : ProcessingDispatch → ProcessingDispatch}
    (same : ∀ dispatch, (change dispatch).Same dispatch) :
    ∀ dispatch ∈ updateOwned dispatches id token change, ∃ old ∈ dispatches, dispatch.Same old := by
  intro dispatch member
  obtain ⟨old, present, rfl⟩ := List.mem_map.mp member
  refine ⟨old, present, ?_⟩
  split
  · exact same old
  · exact .refl old

/-- The dispatches that an update does not close stay open. -/
theorem pending_map {media : Media} {dispatches : List ProcessingDispatch}
    {change : ProcessingDispatch → ProcessingDispatch}
    (same : ∀ dispatch, (change dispatch).generation = dispatch.generation)
    (stays : ∀ dispatch ∈ dispatches, dispatch.generation = media.processingGeneration →
      dispatch.isOpen = true → (change dispatch).isOpen = true)
    (pending : Pending media dispatches) : Pending media (dispatches.map change) := by
  obtain ⟨dispatch, member, current, isOpen⟩ := pending
  exact ⟨change dispatch, List.mem_map_of_mem member, (same dispatch).trans current,
    stays dispatch member current isOpen⟩

/-- A claimed batch keeps the state steady. -/
theorem steady_claimDispatch (steady : Steady fleet s) {token : LeaseToken} {dispatchId : String}
    {asOf : Time} (taken : stepClaimDispatch fleet s token dispatchId asOf = some t) :
    Steady fleet t := by
  unfold stepClaimDispatch at taken
  split at taken
  · split at taken
    · obtain ⟨⟨dispatches, dispatch⟩, claimed, rfl⟩ := Option.map_eq_some_iff.mp taken
      obtain ⟨found, search, same⟩ := Option.map_eq_some_iff.mp claimed
      obtain ⟨rfl, rfl⟩ := Prod.mk.inj same
      have columns (dispatch : ProcessingDispatch) :
          (dispatch.claimed fleet.outboxLeaseSeconds token asOf).Same dispatch :=
        ⟨rfl, rfl, rfl, rfl, rfl, rfl, rfl, rfl⟩
      have stored : Steady fleet (s.storing (s.dispatches.map fun dispatch =>
          if dispatch.id = dispatchId && dispatch.claimable asOf then
            dispatch.claimed fleet.outboxLeaseSeconds token asOf
          else dispatch)) := by
        refine steady.storing ?_ fun pending => .inl (pending_map ?_ ?_ pending)
        · intro dispatch member
          obtain ⟨old, present, rfl⟩ := List.mem_map.mp member
          refine ⟨old, present, ?_⟩
          split
          · exact columns old
          · exact .refl old
        · intro dispatch
          split <;> rfl
        · intro dispatch _ _ isOpen
          split
          · rfl
          · exact isOpen
      refine stored.publishing (.claimed _) ?_ token dispatchId
      exact (steady.dispatches found (List.mem_of_find?_eq_some search)).same (columns found)
    · cases taken
  · cases taken

/-- The add of a job keeps the state steady. The checks never fail. -/
theorem steady_add (steady : Steady fleet s) {token : LeaseToken} {dispatchId : String}
    {fate : Fate} {error : String} (taken : stepAdd s token dispatchId fate error = some t) :
    Steady fleet t := by
  unfold stepAdd at taken
  split at taken
  · rename_i dispatch started
    have genuine : Genuine fleet s.media dispatch := by
      have sound := steady.publishers token dispatchId
      rwa [started] at sound
    obtain ⟨payload, checked, owner, generation, jobId⟩ := genuine.checked
    rw [checked] at taken
    have before := steady.job_sound dispatch.generation
    rw [← jobId] at before
    have added :
        Steady fleet (s.queueing dispatch.jobId ((s.jobs dispatch.jobId).add payload)) := by
      refine steady.queueing ?_ ?_ ?_
      · intro _
        refine ⟨dispatch.generation, jobId, ?_⟩
        cases present : s.jobs dispatch.jobId with
        | absent => exact ⟨owner, generation, genuine.generation_le⟩
        | _ =>
            rw [present] at before
            exact before
      · intro _ _ live
        refine .inl ?_
        cases present : s.jobs dispatch.jobId <;> simp [present, Job.live] at live <;> rfl
      · intro x payload' attemptsMade present _
        rw [present]
        rfl
    have retrying : PublisherSound fleet s.media s.jobs
        (.retrying dispatch "REDIS_PUBLISH_FAILED" error) := genuine
    cases fate with
    | ok =>
        cases taken
        refine added.publishing (.added dispatch) ⟨genuine, ?_⟩ token dispatchId
        show Safe s.media (Function.update s.jobs dispatch.jobId _) dispatch.generation
        unfold Safe
        rw [← jobId, Function.update_self]
        cases present : s.jobs dispatch.jobId with
        | completed | failed =>
            rw [present] at before
            exact .inr before.2
        | _ => exact .inl rfl
    | unacknowledged =>
        cases taken
        exact added.publishing (.retrying dispatch _ error) genuine token dispatchId
    | refused =>
        cases taken
        exact steady.publishing _ retrying token dispatchId
  · cases taken

/-- Only a publication that knows its generation to be safe closes a dispatch. -/
theorem steady_markPublished (steady : Steady fleet s) {token : LeaseToken} {dispatchId : String}
    {fate : Fate} {error : String}
    (taken : stepMarkPublished s token dispatchId fate error = some t) : Steady fleet t := by
  unfold stepMarkPublished at taken
  split at taken
  · rename_i dispatch started
    cases taken
    obtain ⟨genuine, safe⟩ : Genuine fleet s.media dispatch ∧
        Safe s.media s.jobs dispatch.generation := by
      have sound := steady.publishers token dispatchId
      rwa [started] at sound
    have marked : Steady fleet (s.storing (updateOwned s.dispatches dispatch.id token
        (ProcessingDispatch.markPublished s.system.now))) := by
      refine steady.storing (updateOwned_kept fun _ => ⟨rfl, rfl, rfl, rfl, rfl, rfl, rfl, rfl⟩) ?_
      rintro ⟨other, member, current, isOpen⟩
      by_cases owned : other.owned dispatch.id token = true
      · have ids : other.id = dispatch.id := (ProcessingDispatch.of_owned owned).1
        have same := (steady.dispatches other member).generation_inj genuine ids
        rw [current] at same
        exact .inr (same ▸ safe)
      · exact .inl ⟨other, List.mem_map.mpr ⟨other, member, if_neg owned⟩, current, isOpen⟩
    have publisher : PublisherSound fleet s.media s.jobs
        (if fate = .ok then .ended else .retrying dispatch "OUTBOX_FINALIZATION_FAILED" error) := by
      split
      · trivial
      · exact genuine
    cases fate with
    | ok => exact marked.publishing _ publisher token dispatchId
    | unacknowledged => exact marked.publishing _ publisher token dispatchId
    | refused => exact steady.publishing _ publisher token dispatchId
  · cases taken

/-- A publication that waits for its retry leaves the dispatch open. -/
theorem steady_markRetryWait (steady : Steady fleet s) {token : LeaseToken} {dispatchId : String}
    {fate : Fate} {delay : Time}
    (taken : stepMarkRetryWait s token dispatchId fate delay = some t) : Steady fleet t := by
  unfold stepMarkRetryWait at taken
  split at taken
  · rename_i dispatch errorCode errorMessage started
    cases taken
    have marked : Steady fleet (s.storing (updateOwned s.dispatches dispatch.id token
        (ProcessingDispatch.markRetryWait (s.system.now + delay) errorCode errorMessage))) := by
      refine steady.storing (updateOwned_kept fun _ => ⟨rfl, rfl, rfl, rfl, rfl, rfl, rfl, rfl⟩)
        fun pending => .inl (pending_map ?_ ?_ pending)
      · intro dispatch'
        split <;> rfl
      · intro dispatch' _ _ isOpen
        split
        · rfl
        · exact isOpen
    split
    · exact marked.publishing .ended trivial token dispatchId
    · exact steady.publishing .ended trivial token dispatchId
  · cases taken

/-- The cleanup deletes only published dispatches. -/
theorem steady_deletePublished (steady : Steady fleet s) (before : Time) :
    Steady fleet (s.storing (deletePublishedBefore s.dispatches before)) := by
  refine steady.storing ?_ ?_
  · intro dispatch member
    exact ⟨dispatch, (List.mem_filter.mp member).1, .refl dispatch⟩
  · rintro ⟨dispatch, member, current, isOpen⟩
    refine .inl ⟨dispatch, List.mem_filter.mpr ⟨member, ?_⟩, current, isOpen⟩
    have unpublished : dispatch.status ≠ .published := by
      intro published
      simp [ProcessingDispatch.isOpen, published] at isOpen
    simp [unpublished]

/-- The removal of a finished job keeps the state steady. -/
theorem steady_expire (steady : Steady fleet s) {jobId : String}
    (taken : (s.jobs jobId).expire.map (s.queueing jobId) = some t) : Steady fleet t := by
  obtain ⟨job, expired, rfl⟩ := Option.map_eq_some_iff.mp taken
  have spent : s.jobs jobId = .completed ∨ s.jobs jobId = .failed := by
    cases present : s.jobs jobId <;> simp [present, Job.expire] at expired <;> simp
  have gone : job = .absent := by
    rcases spent with present | present <;> simp [present, Job.expire] at expired <;>
      exact expired.symm
  subst gone
  refine steady.queueing (fun present => absurd rfl present) ?_ ?_
  · intro generation _ live
    rcases spent with present | present <;> simp [present, Job.live] at live
  · intro x payload attemptsMade active
    rcases spent with present | present <;> simp [present] at active

/-- The queue learns of an end that is final or leaves attempts over. -/
theorem steady_acknowledge (steady : Steady fleet s) {x : ExecutionId} {jobId : String}
    (taken : stepAcknowledge fleet s x jobId = some t) : Steady fleet t := by
  unfold stepAcknowledge at taken
  split at taken
  · rename_i payload attemptsMade y present
    split at taken
    · rename_i same
      subst same
      obtain ⟨generation, rfl, sound⟩ := steady.jobs jobId (by simp [present])
      rw [present] at sound
      obtain ⟨owner, ofGeneration, old, _, _, ended⟩ := sound
      have own (generation' : Nat)
          (ids : mediaJobId s.media.id generation = mediaJobId s.media.id generation') :
          generation' = generation := (mediaJobId_inj ids).symm
      have idle (job : Job) (done : (s.system.executions y).delivery = none) :
          ∀ x payload' attemptsMade', s.jobs (mediaJobId s.media.id generation) =
            .active payload' attemptsMade' x →
            (s.system.executions x).delivery = some (payload', attemptsMade') →
              job = .active payload' attemptsMade' x := by
        intro x payload' attemptsMade' active delivery
        rw [present] at active
        cases active
        simp [done] at delivery
      split at taken
      · rename_i returned
        cases taken
        have past := ended (.inl returned)
        refine steady.queueing (fun _ => ⟨generation, rfl, old, past⟩) ?_
          (idle _ (by rw [returned]; rfl))
        intro generation' ids _
        rw [own generation' ids]
        exact .inr past
      · rename_i threw
        cases taken
        unfold Job.throw
        split
        · rename_i last
          have past := ended (.inr ⟨threw, last⟩)
          refine steady.queueing (fun _ => ⟨generation, rfl, old, past⟩) ?_
            (idle _ (by rw [threw]; rfl))
          intro generation' ids _
          rw [own generation' ids]
          exact .inr past
        · exact steady.queueing (fun _ => ⟨generation, rfl, owner, ofGeneration, old⟩)
            (fun _ _ _ => .inl rfl) (idle _ (by rw [threw]; rfl))
      · cases taken
    · cases taken
  · cases taken

end Outbox

end PostsMedia.Processing
