import PostsMedia.Queues.Dispatchers

namespace PostsMedia.Outbox

namespace State

variable (s : State)

/-- What a call of `claimBatch` that began at this time writes and returns. -/
abbrev batch (settings : Settings) (token : LeaseToken) (locked : List String) (asOf : Time) :
    List ProcessingDispatch × List ProcessingDispatch :=
  claimBatch s.rows locked settings.batchSize settings.leaseSeconds token asOf

/-- The insert adds its row to the table and nothing else. -/
theorem mem_insert {dispatch row : ProcessingDispatch} {position : Nat} :
    row ∈ (s.insert dispatch position).rows ↔ row = dispatch ∨ row ∈ s.rows := by
  rw [insert, List.mem_append, List.mem_cons, or_left_comm, ← List.mem_append,
    List.take_append_drop]

end State

/-- Everything that a statement can do, with what it finds in the state. -/
inductive Effect (settings : Settings) (s : State) : Event → State → Prop
  | tick (duration : Time) : Effect settings s (.tick duration) { s with now := s.now + duration }
  | insert {dispatch : ProcessingDispatch} {position : Nat} (new : dispatch.inserted = true)
      (fresh : dispatch.id ∉ s.created) :
      Effect settings s (.insert dispatch position) (s.insert dispatch position)
  | begin {token : LeaseToken} (idle : s.batches token = .idle) :
      Effect settings s (.begin token)
        { s with batches := Function.update s.batches token (.reading s.now) }
  | claim {token : LeaseToken} {locked : List String} {fate : Fate} {asOf : Time}
      (reading : s.batches token = .reading asOf) :
      Effect settings s (.claim token locked fate)
        ((s.claiming token (s.batch settings token locked asOf).1
          (s.batch settings token locked asOf).2).handing token
            (s.batch settings token locked asOf).2)
  | claimUnseen {token : LeaseToken} {locked : List String} {fate : Fate} {asOf : Time}
      (reading : s.batches token = .reading asOf) :
      Effect settings s (.claim token locked fate)
        (s.claiming token (s.batch settings token locked asOf).1
          (s.batch settings token locked asOf).2)
  | refuse {token : LeaseToken} {locked : List String} {fate : Fate} :
      Effect settings s (.claim token locked fate)
        { s with batches := Function.update s.batches token .ended }
  | reject {token : LeaseToken} {id error message : String} {fate : Fate}
      {dispatch : ProcessingDispatch} (claimed : s.publications token id = .claimed dispatch)
      (refused : dispatch.checked = .error message) :
      Effect settings s (.add token id fate error)
        (s.publishing token id (.dying dispatch message))
  | add {token : LeaseToken} {id error : String} {fate : Fate} {dispatch : ProcessingDispatch}
      {payload : MediaJobPayloadV1} (claimed : s.publications token id = .claimed dispatch)
      (checked : dispatch.checked = .ok payload) :
      Effect settings s (.add token id fate error)
        (State.publishing { s with
            queued := s.queued ++ [⟨queueNameFor payload.mediaType, dispatch.jobName,
              dispatch.payload, dispatch.jobId⟩] }
          token id (.added dispatch))
  | miss {token : LeaseToken} {id error : String} {fate : Fate} {dispatch : ProcessingDispatch}
      (claimed : s.publications token id = .claimed dispatch) :
      Effect settings s (.add token id fate error)
        (s.publishing token id (.retrying dispatch "REDIS_PUBLISH_FAILED" error))
  | markPublished {token : LeaseToken} {id error : String} {asOf : Time} {fate : Fate}
      {dispatch : ProcessingDispatch} (added : s.publications token id = .added dispatch) :
      Effect settings s (.markPublished token id asOf fate error)
        ((if fate.tookEffect then
            s.mark token dispatch.id (ProcessingDispatch.markPublished asOf)
          else s).publishing token id
            (if fate = .ok then .ended
            else .retrying dispatch "OUTBOX_FINALIZATION_FAILED" error))
  | markRetryWait {token : LeaseToken} {id errorCode errorMessage : String} {nextAttemptAt : Time}
      {fate : Fate} {dispatch : ProcessingDispatch}
      (retrying : s.publications token id = .retrying dispatch errorCode errorMessage) :
      Effect settings s (.markRetryWait token id nextAttemptAt fate)
        ((if fate.tookEffect then
            s.mark token dispatch.id
              (ProcessingDispatch.markRetryWait nextAttemptAt errorCode errorMessage)
          else s).publishing token id .ended)
  | markDead {token : LeaseToken} {id message : String} {fate : Fate}
      {dispatch : ProcessingDispatch} (dying : s.publications token id = .dying dispatch message) :
      Effect settings s (.markDead token id fate)
        ((if fate.tookEffect then
            s.mark token dispatch.id (ProcessingDispatch.markDead "OUTBOX_MAPPING_INVALID" message)
          else s).publishing token id .ended)
  | crash (token : LeaseToken) :
      Effect settings s (.crash token)
        { s with
          batches := Function.update s.batches token .ended
          publications := Function.update s.publications token fun _ => .ended }
  | deletePublished (before : Time) :
      Effect settings s (.deletePublished before)
        { s with rows := deletePublishedBefore s.rows before }

variable {settings : Settings} {s t : State} {event : Event}

theorem effect_of_claim {token : LeaseToken} {locked : List String} {fate : Fate}
    (taken : stepClaim settings s token locked fate = some t) :
    Effect settings s (.claim token locked fate) t := by
  simp only [stepClaim] at taken
  split at taken
  · rename_i asOf reading
    cases fate <;> cases taken
    · exact .claim reading
    · exact .refuse
    · exact .claimUnseen reading
  · cases taken

theorem effect_of_add {token : LeaseToken} {id error : String} {fate : Fate}
    (taken : stepAdd s token id fate error = some t) :
    Effect settings s (.add token id fate error) t := by
  simp only [stepAdd] at taken
  split at taken
  · rename_i dispatch claimed
    split at taken
    · rename_i message refused
      cases taken
      exact .reject claimed refused
    · rename_i payload checked
      split at taken <;> cases taken
      · exact .add claimed checked
      · exact .miss claimed
  · cases taken

/-- Every statement does one of these. -/
theorem effect_of_step (taken : step settings s event = some t) : Effect settings s event t := by
  cases event with
  | tick duration =>
      cases taken
      exact .tick duration
  | insert dispatch position =>
      simp only [step] at taken
      split at taken <;> cases taken
      rename_i allowed
      exact .insert allowed.1 allowed.2
  | begin token =>
      simp only [step] at taken
      split at taken <;> cases taken
      rename_i idle
      exact .begin idle
  | claim token locked fate => exact effect_of_claim taken
  | add token id fate error => exact effect_of_add taken
  | markPublished token id asOf fate error =>
      simp only [step, stepMarkPublished] at taken
      split at taken <;> cases taken
      rename_i added
      exact .markPublished added
  | markRetryWait token id nextAttemptAt fate =>
      simp only [step, stepMarkRetryWait] at taken
      split at taken <;> cases taken
      rename_i retrying
      exact .markRetryWait retrying
  | markDead token id fate =>
      simp only [step, stepMarkDead] at taken
      split at taken <;> cases taken
      rename_i dying
      exact .markDead dying
  | crash token =>
      cases taken
      exact .crash token
  | deletePublished before =>
      cases taken
      exact .deletePublished before

end PostsMedia.Outbox
