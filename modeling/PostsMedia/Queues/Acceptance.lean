import PostsMedia.Queues.Soundness

namespace PostsMedia.Outbox

/-- The checks of the publication refuse the dispatch. -/
def Refused (dispatch : ProcessingDispatch) : Prop := ∀ payload, dispatch.checked ≠ .ok payload

/-- A publication gives up only a dispatch that the checks refuse. -/
def PublicationWithin (holds : ProcessingDispatch → Prop) : Publication → Prop
  | .idle | .ended => True
  | .claimed dispatch | .retrying dispatch _ _ | .added dispatch => holds dispatch
  | .dying dispatch _ => holds dispatch ∧ Refused dispatch

/-- Every dispatch of the outbox has a property, a dead one is refused by the checks, and every job
carries such a dispatch. -/
structure Within (holds : ProcessingDispatch → Prop) (s : State) : Prop where
  rows : ∀ dispatch ∈ s.rows, holds dispatch ∧ (dispatch.status = .dead → Refused dispatch)
  publications : ∀ token id, PublicationWithin holds (s.publications token id)
  queued : ∀ job ∈ s.queued, ∃ dispatch, holds dispatch ∧ job.Carries dispatch

variable {holds weaker : ProcessingDispatch → Prop} {settings : Settings} {s t : State}

theorem Within.mono (within : Within holds s)
    (later : ∀ dispatch, holds dispatch → weaker dispatch) :
    Within weaker s where
  rows dispatch member := ⟨later _ (within.rows dispatch member).1, (within.rows dispatch member).2⟩
  publications token id := by
    have mine := within.publications token id
    cases phase : s.publications token id with
    | idle | ended => trivial
    | claimed dispatch | added dispatch | retrying dispatch =>
        rw [phase] at mine
        exact later dispatch mine
    | dying dispatch message =>
        rw [phase] at mine
        exact ⟨later dispatch mine.1, mine.2⟩
  queued job member := by
    obtain ⟨dispatch, good, carries⟩ := within.queued job member
    exact ⟨dispatch, later dispatch good, carries⟩

/-- A new row with the property keeps the outbox within it. -/
theorem Within.insert (within : Within holds s) {dispatch : ProcessingDispatch}
    (good : holds dispatch) (new : dispatch.inserted = true) (position : Nat) :
    Within holds (s.insert dispatch position) where
  rows row member := by
    rcases s.mem_insert.mp member with rfl | old
    · exact ⟨good, by simp [(ProcessingDispatch.of_inserted new).1]⟩
    · exact within.rows row old
  publications := within.publications
  queued := within.queued

/-- A publication may move on while its dispatch keeps the property. -/
theorem Within.publishing (within : Within holds s) {publication : Publication}
    (next : PublicationWithin holds publication) (token : LeaseToken) (id : String) :
    Within holds (s.publishing token id publication) where
  rows := within.rows
  queued := within.queued
  publications token' id' := by
    by_cases same : token' = token
    · subst same
      by_cases same : id' = id
      · subst same
        simpa [State.publishing] using next
      · simpa [State.publishing, same] using within.publications token' id'
    · simpa [State.publishing, same] using within.publications token' id'

/-- A publication that passes the checks and reaches Redis adds its job. -/
theorem step_add_of_checked {token : LeaseToken} {id : String} {dispatch : ProcessingDispatch}
    {payload : MediaJobPayloadV1} (claimed : s.publications token id = .claimed dispatch)
    (checked : dispatch.checked = .ok payload) (error : String) :
    step settings s (.add token id .ok error) =
      some ({ s with
        queued := s.queued ++ [(⟨queueNameFor payload.mediaType, dispatch.jobName,
          dispatch.payload, dispatch.jobId⟩ : Added)] }.publishing token id (.added dispatch)) := by
  simp only [step, stepAdd, claimed, checked, if_true]

variable (fixed : ∀ first second : ProcessingDispatch, first.Same second → holds first →
  holds second)

include fixed

/-- A mark that gives up only a refused dispatch keeps the outbox within the property. -/
theorem Within.marked (within : Within holds s) {token : LeaseToken} {id dispatchId : String}
    {change : ProcessingDispatch → ProcessingDispatch} {publication : Publication} (fate : Fate)
    (same : ∀ dispatch : ProcessingDispatch, dispatch.Same (change dispatch))
    (alive : ∀ dispatch ∈ s.rows, dispatch.id = dispatchId → (change dispatch).status = .dead →
      Refused dispatch)
    (next : PublicationWithin holds publication) :
    Within holds ((if fate.tookEffect then s.mark token dispatchId change else s).publishing token
      id publication) := by
  split
  · have marked : Within holds (s.mark token dispatchId change) := by
      refine ⟨fun row member => ?_, within.publications, within.queued⟩
      obtain ⟨old, present, rfl⟩ := List.mem_map.mp member
      obtain ⟨good, running⟩ := within.rows old present
      split
      · rename_i owned
        have named := (ProcessingDispatch.of_owned owned).1
        refine ⟨fixed _ _ (same old) good, fun dead payload => ?_⟩
        rw [← (same old).checked]
        exact alive old present named dead payload
      · exact ⟨good, running⟩
    exact marked.publishing next token id
  · exact within.publishing next token id

/-- A claim hands out rows with the property. -/
theorem Within.claim (within : Within holds s) (token : LeaseToken) (locked : List String)
    (batchSize leaseSeconds : Nat) (asOf : Time) :
    let batch := claimBatch s.rows locked batchSize leaseSeconds token asOf
    Within holds (s.claiming token batch.1 batch.2) ∧ ∀ dispatch ∈ batch.2, holds dispatch := by
  have claimed (dispatch : ProcessingDispatch) :
      dispatch.Same (dispatch.claimed leaseSeconds token asOf) := dispatch.same_claimed ..
  refine ⟨⟨fun row member => ?_, within.publications, within.queued⟩, fun dispatch handed => ?_⟩
  · obtain ⟨old, present, rfl⟩ := List.mem_map.mp member
    obtain ⟨good, running⟩ := within.rows old present
    split
    · exact ⟨fixed _ _ (claimed old) good, by simp [ProcessingDispatch.claimed]⟩
    · exact ⟨good, running⟩
  · obtain ⟨candidate, chosen, rfl⟩ := List.mem_map.mp handed
    have good := (within.rows candidate (mem_claimCandidates chosen).1).1
    exact fixed _ _ (claimed candidate) good

/-- Every statement of the dispatchers keeps the outbox within the property. -/
theorem within_step {event : Event} (sound : Sound s) (within : Within holds s)
    (inserts : ∀ dispatch position, event ≠ .insert dispatch position)
    (taken : step settings s event = some t) : Within holds t := by
  have publication {token : LeaseToken} {id : String} {phase : Publication}
      (current : s.publications token id = phase) : PublicationWithin holds phase :=
    current ▸ within.publications token id
  cases effect_of_step taken with
  | insert => exact absurd rfl (inserts _ _)
  | tick | begin | refuse => exact ⟨within.rows, within.publications, within.queued⟩
  | @claim token locked _ asOf _ =>
      obtain ⟨claimed, handed⟩ := within.claim fixed token locked settings.batchSize
        settings.leaseSeconds asOf
      refine ⟨claimed.rows, fun token' id => ?_, claimed.queued⟩
      by_cases same : token' = token
      · subst same
        simp only [State.handing, Function.update_self]
        split
        · rename_i dispatch found
          exact handed dispatch (List.mem_of_find?_eq_some found)
        · exact claimed.publications token' id
      · simpa [State.handing, same] using claimed.publications token' id
  | @claimUnseen token locked _ asOf _ =>
      exact (within.claim fixed token locked settings.batchSize settings.leaseSeconds asOf).1
  | @reject _ _ _ message _ dispatch claimed refused =>
      have good : holds dispatch := publication claimed
      have next : PublicationWithin holds (.dying dispatch message) :=
        ⟨good, fun payload checked => by rw [refused] at checked; cases checked⟩
      exact within.publishing next _ _
  | @add _ _ _ _ dispatch _ claimed checked =>
      have good : holds dispatch := publication claimed
      have next : PublicationWithin holds (.added dispatch) := good
      apply Within.publishing _ next
      refine ⟨within.rows, within.publications, fun job member => ?_⟩
      rcases List.mem_append.mp member with old | new
      · exact within.queued job old
      · rw [List.mem_singleton.mp new]
        exact ⟨dispatch, good, carries_of_checked checked⟩
  | @miss _ _ error _ dispatch claimed =>
      have good : holds dispatch := publication claimed
      have next : PublicationWithin holds (.retrying dispatch "REDIS_PUBLISH_FAILED" error) := good
      exact within.publishing next _ _
  | @markPublished _ _ _ _ _ dispatch added =>
      have good : holds dispatch := publication added
      apply within.marked fixed
      · exact fun row => row.same_markPublished _
      · intro _ _ _ dead
        cases dead
      · split
        · trivial
        · exact good
  | markRetryWait =>
      apply within.marked fixed
      · exact fun row => row.same_markRetryWait ..
      · intro _ _ _ dead
        cases dead
      · trivial
  | @markDead token id _ _ _ dying =>
      have refused : Refused _ := (publication dying).2
      have known := sound.publications token id
      rw [dying] at known
      apply within.marked fixed
      · exact fun row => row.same_markDead ..
      · intro row member same _ payload
        rw [← (known.2 row member same).checked]
        exact refused payload
      · trivial
  | crash token =>
      refine ⟨within.rows, fun token' id => ?_, within.queued⟩
      by_cases same : token' = token
      · simp [same, PublicationWithin]
      · simpa [same] using within.publications token' id
  | deletePublished =>
      exact ⟨fun row member => within.rows row (List.mem_of_mem_filter member),
        within.publications, within.queued⟩

end PostsMedia.Outbox
