import Mathlib.Data.List.Nodup
import PostsMedia.Queues.Effects

namespace PostsMedia.Outbox

/-- The queue received exactly the job of the row. -/
structure Added.Carries (job : Added) (dispatch : ProcessingDispatch) : Prop where
  queueName : job.queueName = dispatch.queueName
  jobName : job.jobName = dispatch.jobName
  payload : job.payload = dispatch.payload
  jobId : job.jobId = dispatch.jobId

/-- The columns of a row fit its status. -/
structure Healthy (queued : List Added) (dispatch : ProcessingDispatch) : Prop where
  token : dispatch.leaseToken.isSome = true ↔ dispatch.status = .publishing
  expiry : dispatch.leaseExpiresAt.isSome = true ↔ dispatch.status = .publishing
  waiting : dispatch.status = .retryWait → dispatch.nextAttemptAt.isSome = true
  published : dispatch.status = .published → ∃ job ∈ queued, job.Carries dispatch

/-- A publication knows the columns of its row that no statement changes. -/
def Knows (s : State) (dispatch : ProcessingDispatch) : Prop :=
  dispatch.id ∈ s.created ∧ ∀ row ∈ s.rows, row.id = dispatch.id → dispatch.Same row

/-- A publication that has added its job knows the job. -/
def PublicationSound (s : State) : Publication → Prop
  | .idle | .ended => True
  | .claimed dispatch | .retrying dispatch _ _ | .dying dispatch _ => Knows s dispatch
  | .added dispatch => Knows s dispatch ∧ ∃ job ∈ s.queued, job.Carries dispatch

/-- A call of `claimBatch` has granted nothing before its transaction. -/
def CallSound (now : Time) (terms : String → Option Time) : Batch → Prop
  | .idle => ∀ id, terms id = none
  | .reading asOf => asOf ≤ now ∧ ∀ id, terms id = none
  | .ended => True

/-- The table, the queue and the publications agree. -/
structure Sound (s : State) : Prop where
  distinct : (s.rows.map (·.id)).Nodup
  known : ∀ dispatch ∈ s.rows, dispatch.id ∈ s.created
  healthy : ∀ dispatch ∈ s.rows, Healthy s.queued dispatch
  publications : ∀ token id, PublicationSound s (s.publications token id)
  calls : ∀ token, CallSound s.now (s.terms token) (s.batches token)

section Rows

variable {dispatch row : ProcessingDispatch} {queued : List Added}

theorem Added.Carries.same {job : Added} (carries : job.Carries dispatch)
    (same : dispatch.Same row) : job.Carries row :=
  ⟨carries.queueName.trans same.queueName, carries.jobName.trans same.jobName,
    carries.payload.trans same.payload, carries.jobId.trans same.jobId⟩

/-- A dispatch that passes the checks goes to the queue of its row. -/
theorem carries_of_checked {payload : MediaJobPayloadV1}
    (checked : dispatch.checked = .ok payload) :
    Added.Carries ⟨queueNameFor payload.mediaType, dispatch.jobName, dispatch.payload,
      dispatch.jobId⟩ dispatch := by
  refine ⟨?_, rfl, rfl, rfl⟩
  unfold ProcessingDispatch.checked at checked
  split at checked
  · cases checked
  · split at checked <;> cases checked
    rename_i mapped
    exact mapped.1.symm

theorem Healthy.later {more : List Added} (healthy : Healthy queued dispatch) :
    Healthy (queued ++ more) dispatch where
  token := healthy.token
  expiry := healthy.expiry
  waiting := healthy.waiting
  published done := by
    obtain ⟨job, member, carries⟩ := healthy.published done
    exact ⟨job, List.mem_append_left _ member, carries⟩

theorem healthy_inserted (new : dispatch.inserted = true) : Healthy queued dispatch := by
  obtain ⟨status, token, expiry⟩ := ProcessingDispatch.of_inserted new
  exact ⟨by simp [status, token], by simp [status, expiry], by simp [status], by simp [status]⟩

theorem healthy_claimed (leaseSeconds : Nat) (token : LeaseToken) (now : Time) :
    Healthy queued (dispatch.claimed leaseSeconds token now) := by
  constructor <;> simp [ProcessingDispatch.claimed]

theorem healthy_markPublished {job : Added} (member : job ∈ queued) (carries : job.Carries dispatch)
    (asOf : Time) : Healthy queued (dispatch.markPublished asOf) where
  token := by simp [ProcessingDispatch.markPublished]
  expiry := by simp [ProcessingDispatch.markPublished]
  waiting waits := by cases waits
  published _ := ⟨job, member, carries.queueName, carries.jobName, carries.payload, carries.jobId⟩

theorem healthy_markRetryWait (due : Time) (errorCode errorMessage : String) :
    Healthy queued (dispatch.markRetryWait due errorCode errorMessage) := by
  constructor <;> simp [ProcessingDispatch.markRetryWait]

theorem healthy_markDead (errorCode errorMessage : String) :
    Healthy queued (dispatch.markDead errorCode errorMessage) := by
  constructor <;> simp [ProcessingDispatch.markDead]

end Rows

section Tables

variable {rows : List ProcessingDispatch} {locked : List String} {batchSize leaseSeconds : Nat}
variable {token : LeaseToken} {now : Time}

/-- Ids name the rows of a table. -/
theorem eq_of_id (distinct : (rows.map (·.id)).Nodup) {first second : ProcessingDispatch}
    (member : first ∈ rows) (member' : second ∈ rows) (same : first.id = second.id) :
    first = second :=
  List.inj_on_of_nodup_map distinct member member' same

theorem mem_claimCandidates {dispatch : ProcessingDispatch}
    (member : dispatch ∈ claimCandidates rows locked batchSize now) :
    dispatch ∈ rows ∧ dispatch.claimable now = true := by
  have filtered := List.mem_of_mem_take member
  simp only [List.mem_filter, Bool.and_eq_true] at filtered
  exact ⟨filtered.1, filtered.2.1⟩

/-- A claimed row was claimable. -/
theorem claimable_of_candidate (distinct : (rows.map (·.id)).Nodup)
    {dispatch : ProcessingDispatch} (member : dispatch ∈ rows)
    (candidate : (claimCandidates rows locked batchSize now).any (·.id = dispatch.id) = true) :
    dispatch.claimable now = true := by
  obtain ⟨found, chosen, same⟩ := List.any_eq_true.mp candidate
  obtain ⟨present, matched⟩ := mem_claimCandidates chosen
  have equal := eq_of_id distinct present member (by simpa using same)
  exact equal ▸ matched

/-- A row that is claimed again was open. -/
theorem isOpen_of_claimable {dispatch : ProcessingDispatch}
    (matched : dispatch.claimable now = true) : dispatch.isOpen = true := by
  unfold ProcessingDispatch.claimable at matched
  unfold ProcessingDispatch.isOpen
  split at matched <;> simp_all

end Tables

theorem CallSound.later {now now' : Time} {terms : String → Option Time} {batch : Batch}
    (sound : CallSound now terms batch) (later : now ≤ now') : CallSound now' terms batch := by
  cases batch with
  | reading asOf => exact ⟨Nat.le_trans sound.1 later, sound.2⟩
  | _ => exact sound

section Updates

variable {s t : State}

theorem Knows.later {dispatch : ProcessingDispatch} (knows : Knows s dispatch)
    (created : ∀ id ∈ s.created, id ∈ t.created)
    (rows : ∀ row ∈ t.rows, (∃ old ∈ s.rows, old.Same row) ∨ row.id ∉ s.created) :
    Knows t dispatch := by
  refine ⟨created _ knows.1, fun row member same => ?_⟩
  rcases rows row member with ⟨old, present, kept⟩ | fresh
  · exact (knows.2 old present (kept.id.trans same)).trans kept
  · exact absurd (same ▸ knows.1) fresh

/-- Every row of the later table comes from an earlier row or is new. -/
theorem PublicationSound.later {publication : Publication}
    (sound : PublicationSound s publication) (created : ∀ id ∈ s.created, id ∈ t.created)
    (rows : ∀ row ∈ t.rows, (∃ old ∈ s.rows, old.Same row) ∨ row.id ∉ s.created)
    (queued : ∀ job ∈ s.queued, job ∈ t.queued) : PublicationSound t publication := by
  cases publication with
  | idle | ended => trivial
  | claimed dispatch | retrying dispatch _ _ | dying dispatch _ =>
      exact Knows.later sound created rows
  | added dispatch =>
      obtain ⟨knows, job, member, carries⟩ := sound
      exact ⟨knows.later created rows, job, queued job member, carries⟩

/-- An update that keeps the fixed columns and the health of each row keeps the table sound. -/
theorem Sound.update (sound : Sound s) (change : ProcessingDispatch → ProcessingDispatch)
    (same : ∀ dispatch : ProcessingDispatch, dispatch.Same (change dispatch))
    (healthy : ∀ dispatch ∈ s.rows, Healthy s.queued (change dispatch))
    (rows : t.rows = s.rows.map change) (created : t.created = s.created)
    (queued : t.queued = s.queued) (publications : t.publications = s.publications)
    (calls : ∀ token, CallSound t.now (t.terms token) (t.batches token)) : Sound t where
  distinct := by
    have ids : (s.rows.map change).map (·.id) = s.rows.map (·.id) := by
      rw [List.map_map]
      exact List.map_congr_left fun dispatch _ => (same dispatch).id.symm
    rw [rows, ids]
    exact sound.distinct
  known dispatch member := by
    rw [rows] at member
    obtain ⟨old, present, rfl⟩ := List.mem_map.mp member
    rw [← (same old).id, created]
    exact sound.known old present
  healthy dispatch member := by
    rw [rows] at member
    obtain ⟨old, present, rfl⟩ := List.mem_map.mp member
    rw [queued]
    exact healthy old present
  publications token id := by
    rw [publications]
    apply (sound.publications token id).later
    · rw [created]
      exact fun _ known => known
    · intro row member
      rw [rows] at member
      obtain ⟨old, present, rfl⟩ := List.mem_map.mp member
      exact .inl ⟨old, present, same old⟩
    · rw [queued]
      exact fun _ known => known
  calls := calls

/-- A publication may move on to any sound program point. -/
theorem Sound.publishing (sound : Sound s) {publication : Publication}
    (next : PublicationSound s publication) (token : LeaseToken) (id : String) :
    Sound (s.publishing token id publication) where
  distinct := sound.distinct
  known := sound.known
  healthy := sound.healthy
  calls := sound.calls
  publications token' id' := by
    have moved : PublicationSound s
        ((s.publishing token id publication).publications token' id') := by
      by_cases same : token' = token
      · subst same
        by_cases same : id' = id
        · subst same
          simpa [State.publishing] using next
        · simpa [State.publishing, same] using sound.publications token' id'
      · simpa [State.publishing, same] using sound.publications token' id'
    exact moved.later (fun _ known => known) (fun row member => .inl ⟨row, member, .refl row⟩)
      fun _ known => known

/-- An update of the owner's row keeps the table sound. -/
theorem Sound.mark (sound : Sound s) (token : LeaseToken) (id : String)
    (change : ProcessingDispatch → ProcessingDispatch)
    (same : ∀ dispatch : ProcessingDispatch, dispatch.Same (change dispatch))
    (healthy : ∀ dispatch ∈ s.rows, dispatch.id = id → Healthy s.queued (change dispatch)) :
    Sound (s.mark token id change) := by
  refine sound.update (fun dispatch =>
    if dispatch.owned id token then change dispatch else dispatch) ?_ ?_ rfl rfl rfl rfl sound.calls
  · intro dispatch
    split
    · exact same dispatch
    · exact .refl dispatch
  · intro dispatch member
    split
    · rename_i owned
      exact healthy dispatch member (ProcessingDispatch.of_owned owned).1
    · exact sound.healthy dispatch member

/-- A claim of a batch keeps the table sound, and its caller knows the rows that it was handed. -/
theorem Sound.claim (sound : Sound s) (token : LeaseToken) (locked : List String)
    (batchSize leaseSeconds : Nat) (asOf : Time) :
    let batch := claimBatch s.rows locked batchSize leaseSeconds token asOf
    Sound (s.claiming token batch.1 batch.2) ∧
      ∀ dispatch ∈ batch.2, Knows (s.claiming token batch.1 batch.2) dispatch := by
  constructor
  · refine sound.update (fun dispatch =>
      if (claimCandidates s.rows locked batchSize asOf).any (·.id = dispatch.id) then
        dispatch.claimed leaseSeconds token asOf
      else dispatch) ?_ ?_ rfl rfl rfl rfl ?_
    · intro dispatch
      split
      · exact dispatch.same_claimed token asOf leaseSeconds
      · exact .refl dispatch
    · intro dispatch member
      split
      · exact healthy_claimed ..
      · exact sound.healthy dispatch member
    · intro other
      by_cases same : other = token
      · simp [State.claiming, same, CallSound]
      · simpa [State.claiming, same] using sound.calls other
  · intro dispatch handed
    obtain ⟨candidate, chosen, rfl⟩ := List.mem_map.mp handed
    obtain ⟨present, _⟩ := mem_claimCandidates chosen
    refine ⟨sound.known candidate present, fun row member same => ?_⟩
    obtain ⟨old, older, rfl⟩ := List.mem_map.mp member
    have ids : old.id = candidate.id := by
      split at same <;> exact same
    obtain rfl := eq_of_id sound.distinct older present ids
    split <;> exact ⟨rfl, rfl, rfl, rfl, rfl, rfl, rfl, rfl⟩

/-- The caller of `claimBatch` starts its publications with rows that it knows. -/
theorem Sound.handing (sound : Sound s) (token : LeaseToken) {claimed : List ProcessingDispatch}
    (knows : ∀ dispatch ∈ claimed, Knows s dispatch) : Sound (s.handing token claimed) where
  distinct := sound.distinct
  known := sound.known
  healthy := sound.healthy
  calls := sound.calls
  publications token' id := by
    have moved : PublicationSound s ((s.handing token claimed).publications token' id) := by
      by_cases same : token' = token
      · subst same
        simp only [State.handing, Function.update_self]
        split
        · rename_i dispatch found
          exact knows dispatch (List.mem_of_find?_eq_some found)
        · exact sound.publications token' id
      · simpa [State.handing, same] using sound.publications token' id
    exact moved.later (fun _ known => known) (fun row member => .inl ⟨row, member, .refl row⟩)
      fun _ known => known

/-- A new row keeps the table sound. -/
theorem Sound.insert (sound : Sound s) {dispatch : ProcessingDispatch}
    (new : dispatch.inserted = true) (fresh : dispatch.id ∉ s.created) (position : Nat) :
    Sound (s.insert dispatch position) := by
  have arranged : (s.insert dispatch position).rows.Perm (dispatch :: s.rows) := by
    have middle : (s.insert dispatch position).rows.Perm
        (dispatch :: (s.rows.take position ++ s.rows.drop position)) := List.perm_middle
    rwa [List.take_append_drop] at middle
  have cases' : ∀ row ∈ (s.insert dispatch position).rows, row = dispatch ∨ row ∈ s.rows :=
    fun _ => s.mem_insert.mp
  refine ⟨?_, ?_, ?_, ?_, sound.calls⟩
  · rw [(arranged.map _).nodup_iff, List.map_cons, List.nodup_cons]
    refine ⟨fun present => ?_, sound.distinct⟩
    obtain ⟨row, member, same⟩ := List.mem_map.mp present
    exact fresh (same ▸ sound.known row member)
  · intro row member
    rcases cases' row member with rfl | old
    · exact List.mem_cons_self ..
    · exact List.mem_cons_of_mem _ (sound.known row old)
  · intro row member
    rcases cases' row member with rfl | old
    · exact healthy_inserted new
    · exact sound.healthy row old
  · intro token id
    apply (sound.publications token id).later
    · exact fun _ known => List.mem_cons_of_mem _ known
    · intro row member
      rcases cases' row member with rfl | old
      · exact .inr fresh
      · exact .inl ⟨row, old, .refl row⟩
    · exact fun _ known => known

/-- Fewer rows stay sound. -/
theorem Sound.delete (sound : Sound s) (before : Time) :
    Sound { s with rows := deletePublishedBefore s.rows before } where
  distinct := sound.distinct.sublist (List.filter_sublist.map _)
  known row member := sound.known row (List.mem_of_mem_filter member)
  healthy row member := sound.healthy row (List.mem_of_mem_filter member)
  publications token id := (sound.publications token id).later (fun _ known => known)
    (fun row member => .inl ⟨row, List.mem_of_mem_filter member, .refl row⟩) fun _ known => known
  calls := sound.calls

/-- A longer history of the queue keeps the table sound. -/
theorem Sound.queue (sound : Sound s) (job : Added) :
    Sound { s with queued := s.queued ++ [job] } where
  distinct := sound.distinct
  known := sound.known
  healthy row member := (sound.healthy row member).later
  publications token id := (sound.publications token id).later (fun _ known => known)
    (fun row member => .inl ⟨row, member, .refl row⟩) fun _ => List.mem_append_left _
  calls := sound.calls

end Updates

section Steps

variable {settings : Settings} {s t : State}

/-- The owner marks its row and its publication goes on. -/
theorem Sound.marked (sound : Sound s) {token : LeaseToken} {id : String} {dispatchId : String}
    {change : ProcessingDispatch → ProcessingDispatch} {publication : Publication} (fate : Fate)
    (same : ∀ dispatch : ProcessingDispatch, dispatch.Same (change dispatch))
    (healthy : ∀ dispatch ∈ s.rows, dispatch.id = dispatchId → Healthy s.queued (change dispatch))
    (next : ∀ u : State, Sound u → (∀ dispatch, Knows s dispatch → Knows u dispatch) →
      PublicationSound u publication) :
    Sound ((if fate.tookEffect then s.mark token dispatchId change else s).publishing token id
      publication) := by
  split
  · have marked := sound.mark token dispatchId change same healthy
    apply marked.publishing
    apply next _ marked
    intro dispatch knows
    refine knows.later (fun _ known => known) fun row member => .inl ?_
    obtain ⟨old, present, rfl⟩ := List.mem_map.mp member
    refine ⟨old, present, ?_⟩
    split
    · exact same old
    · exact .refl old
  · exact sound.publishing (next s sound fun _ knows => knows) token id

/-- A call of `claimBatch` goes on without a write. -/
theorem Sound.call (sound : Sound s) (token : LeaseToken) {batch : Batch}
    (own : CallSound s.now (s.terms token) batch) :
    Sound { s with batches := Function.update s.batches token batch } := by
  refine sound.update id .refl sound.healthy (List.map_id _).symm rfl rfl rfl fun other => ?_
  by_cases same : other = token
  · simpa [same] using own
  · simpa [same] using sound.calls other

/-- The process of a call died, and its publications with it. -/
theorem Sound.crash (sound : Sound s) (token : LeaseToken) :
    Sound { s with
      batches := Function.update s.batches token .ended
      publications := Function.update s.publications token fun _ => .ended } := by
  have ended : CallSound s.now (s.terms token) .ended := trivial
  refine ⟨sound.distinct, sound.known, sound.healthy, ?_, (sound.call token ended).calls⟩
  intro other id
  have moved : PublicationSound s (Function.update s.publications token
      (fun _ => .ended) other id) := by
    by_cases same : other = token
    · simp [same, PublicationSound]
    · simpa [same] using sound.publications other id
  exact moved.later (fun _ known => known) (fun row member => .inl ⟨row, member, .refl row⟩)
    fun _ known => known

/-- Every statement keeps the table sound. -/
theorem sound_step {event : Event} (sound : Sound s) (taken : step settings s event = some t) :
    Sound t := by
  have publication {token : LeaseToken} {id : String} {phase : Publication}
      (current : s.publications token id = phase) : PublicationSound s phase :=
    current ▸ sound.publications token id
  cases effect_of_step taken with
  | tick duration =>
      refine sound.update id .refl sound.healthy (List.map_id _).symm rfl rfl rfl fun token => ?_
      exact (sound.calls token).later (Nat.le_add_right _ _)
  | @insert dispatch position new fresh => exact sound.insert new fresh position
  | @begin token idle =>
      have unclaimed := sound.calls token
      rw [idle] at unclaimed
      exact sound.call token ⟨Nat.le_refl _, unclaimed⟩
  | @claim token locked _ asOf _ =>
      obtain ⟨claimed, knows⟩ := sound.claim token locked settings.batchSize
        settings.leaseSeconds asOf
      exact claimed.handing token knows
  | @claimUnseen token locked _ asOf _ =>
      exact (sound.claim token locked settings.batchSize settings.leaseSeconds asOf).1
  | refuse => exact sound.call _ trivial
  | @reject _ _ _ message _ dispatch claimed _ =>
      have knows : Knows s dispatch := publication claimed
      have next : PublicationSound s (.dying dispatch message) := knows
      exact sound.publishing next _ _
  | add claimed checked =>
      apply (sound.queue _).publishing
      exact ⟨publication claimed, _, List.mem_append_right _ (List.mem_singleton_self _),
        carries_of_checked checked⟩
  | @miss _ _ error _ dispatch claimed =>
      have knows : Knows s dispatch := publication claimed
      have next : PublicationSound s (.retrying dispatch "REDIS_PUBLISH_FAILED" error) := knows
      exact sound.publishing next _ _
  | @markPublished _ _ _ asOf fate dispatch added =>
      obtain ⟨knows, job, member, carries⟩ := publication added
      apply sound.marked fate
      · exact fun row => row.same_markPublished asOf
      · intro row present same
        exact healthy_markPublished member (carries.same (knows.2 row present same)) asOf
      · intro u _ later
        split
        · trivial
        · exact later dispatch knows
  | markRetryWait =>
      apply sound.marked
      · exact fun row => row.same_markRetryWait ..
      · exact fun _ _ _ => healthy_markRetryWait ..
      · exact fun _ _ _ => trivial
  | markDead =>
      apply sound.marked
      · exact fun row => row.same_markDead ..
      · exact fun _ _ _ => healthy_markDead ..
      · exact fun _ _ _ => trivial
  | crash token => exact sound.crash token
  | deletePublished before => exact sound.delete before

theorem sound_initial (initial : (machine settings).initial s) : Sound s := by
  obtain ⟨rows, calls, idle, _, _, terms, _⟩ := initial
  refine ⟨by simp [rows], by simp [rows], by simp [rows], fun token id => ?_, fun token => ?_⟩
  · rw [idle token id]
    trivial
  · rw [calls token]
    exact terms token

theorem sound_of_reachable {guard : State → Event → Prop}
    (reached : (machine settings).Reachable guard s) : Sound s :=
  reached.invariant (fun _ => sound_initial) fun _ _ _ _ taken sound => sound_step sound taken

end Steps

end PostsMedia.Outbox
