import PostsMedia.Platform.System

namespace PostsMedia.Platform

open MediaService (WorkerEvent)

open Processing (Rows retryDispatch)

/-- The step commits a retry. -/
def Event.commits : Event → Bool
  | .commit _ _ fate => fate.tookEffect
  | _ => false

/-- The transaction of the retry is over. -/
def RetryPhase.ended : RetryPhase → Bool
  | .returned _ | .failed => true
  | _ => false

/-- Everything that an event can do, with what it finds in the state. -/
inductive Effect (settings : Outbox.Settings) (s : State) : Event → State → Prop
  | upload {postId : String} {start : Nat} {promoted : List PromotedUpload}
      {positions : String → Nat} (fresh : FreshUploads s promoted) :
      Effect settings s (.upload postId start promoted positions)
        (s.upload (createAllWithDispatch postId start promoted) positions)
  | work {mediaId : String} {worker : WorkerEvent} {rows : Rows}
      (present : s.stored mediaId = some rows)
      (unlocked : ¬ (writesMedia worker = true ∧ (s.locks mediaId).isSome = true)) :
      Effect settings s (.work mediaId worker) (s.store mediaId (worker.run rows))
  | begin {r : RetryId} {id : String} (started : s.retries r = .idle) :
      Effect settings s (.begin r id) (s.goto r (.reading id))
  | read {r : RetryId} {id : String} {rows : Rows} (started : s.retries r = .reading id)
      (present : s.stored (uuidColumn id) = some rows)
      (failed : rows.media.processingStatus = .failed) :
      Effect settings s (.read r) (s.goto r (.updating id rows.media))
  | reject {r : RetryId} {id : String} {error : DomainError}
      (started : s.retries r = .reading id) :
      Effect settings s (.read r) (s.goto r (.rejected error))
  | lock {r : RetryId} {id : String} {current : Media} {rows : Rows}
      (started : s.retries r = .updating id current)
      (unlocked : s.locks (uuidColumn id) = none)
      (present : s.stored (uuidColumn id) = some rows)
      (failed : rows.media.processingStatus = .failed)
      (unchanged : rows.media.processingGeneration = current.processingGeneration) :
      Effect settings s (.update r)
        { s.goto r (.creating id current rows.media.retried) with
          locks := Function.update s.locks (uuidColumn id) (some r) }
  | lose {r : RetryId} {id : String} {current : Media}
      (started : s.retries r = .updating id current)
      (other : ∀ rows, s.stored (uuidColumn id) = some rows →
        ¬ (rows.media.processingStatus = .failed ∧
          rows.media.processingGeneration = current.processingGeneration)) :
      Effect settings s (.update r)
        (s.goto r (.lost (uuidColumn id) current.processingGeneration))
  | create {r : RetryId} {id dispatchId : String} {current updated : Media}
      (started : s.retries r = .creating id current updated) :
      Effect settings s (.create r dispatchId)
        (s.goto r (.committing id updated (retryDispatch current id dispatchId)))
  | commit {r : RetryId} {position : Nat} {fate : Fate} {id : String} {updated : Media}
      {dispatch : ProcessingDispatch} {rows : Rows} {phase : RetryPhase}
      (started : s.retries r = .committing id updated dispatch)
      (present : s.stored (uuidColumn id) = some rows)
      (fresh : dispatch.id ∉ s.outbox.created) (effective : fate.tookEffect = true)
      (answer : phase = .returned updated ∨ phase = .failed) :
      Effect settings s (.commit r position fate)
        ((s.apply r (uuidColumn id) rows updated dispatch position).finish r phase)
  | rollback {r : RetryId} {event : Event} (started : (s.retries r).ended = false)
      (quiet : event.commits = false) : Effect settings s event (s.finish r .failed)
  | outbox {event : Outbox.Event} {table : Outbox.State}
      (inserts : ∀ dispatch position, event ≠ .insert dispatch position)
      (taken : Outbox.step settings s.outbox event = some table) :
      Effect settings s (.outbox event) { s with outbox := table }

variable {settings : Outbox.Settings} {s t : State} {event : Event}

theorem effect_of_work {mediaId : String} {worker : WorkerEvent}
    (taken : stepWork s mediaId worker = some t) :
    Effect settings s (.work mediaId worker) t := by
  simp only [stepWork] at taken
  split at taken
  · cases taken
  · rename_i unlocked
    obtain ⟨rows, present, rfl⟩ := Option.map_eq_some_iff.mp taken
    exact .work present unlocked

theorem effect_of_read {r : RetryId} (taken : stepRead s r = some t) :
    Effect settings s (.read r) t := by
  simp only [stepRead] at taken
  split at taken
  · rename_i id started
    split at taken
    · cases taken
      exact .reject started
    · rename_i rows present
      split at taken <;> cases taken
      · rename_i failed
        exact .read started present failed
      · exact .reject started
  · cases taken

theorem effect_of_update {r : RetryId} (taken : stepUpdate s r = some t) :
    Effect settings s (.update r) t := by
  simp only [stepUpdate] at taken
  split at taken
  · rename_i id current started
    split at taken
    · cases taken
    · rename_i unlocked
      split at taken
      · rename_i absent
        cases taken
        refine .lose started fun rows present => ?_
        rw [absent] at present
        cases present
      · rename_i rows present
        split at taken <;> cases taken
        · rename_i matched
          have free : s.locks (uuidColumn id) = none := by simpa using unlocked
          exact .lock started free present matched.1 matched.2
        · rename_i unmatched
          refine .lose started fun found stored => ?_
          rw [present] at stored
          cases stored
          exact unmatched
  · cases taken

theorem effect_of_create {r : RetryId} {dispatchId : String}
    (taken : stepCreate s r dispatchId = some t) :
    Effect settings s (.create r dispatchId) t := by
  simp only [stepCreate] at taken
  split at taken <;> cases taken
  rename_i started
  exact .create started

theorem effect_of_commit {r : RetryId} {position : Nat} {fate : Fate}
    (taken : stepCommit s r position fate = some t) :
    Effect settings s (.commit r position fate) t := by
  simp only [stepCommit] at taken
  split at taken
  · rename_i id updated dispatch started
    split at taken
    · cases taken
    · rename_i rows present
      split at taken
      · cases taken
      · rename_i fresh
        cases fate <;> cases taken
        · exact .commit started present fresh rfl (.inl rfl)
        · exact .rollback (by rw [started]; rfl) rfl
        · exact .commit started present fresh rfl (.inr rfl)
  · cases taken

theorem effect_of_abort {r : RetryId} (taken : stepAbort s r = some t) :
    Effect settings s (.abort r) t := by
  simp only [stepAbort] at taken
  split at taken <;> cases taken
  all_goals
    rename_i started
    exact .rollback (by rw [started]; rfl) rfl

/-- Every event does one of these. -/
theorem effect_of_step (taken : step settings s event = some t) : Effect settings s event t := by
  cases event with
  | upload postId start promoted positions =>
      simp only [step] at taken
      split at taken <;> cases taken
      rename_i fresh
      exact .upload fresh
  | work mediaId worker => exact effect_of_work taken
  | begin r id =>
      simp only [step] at taken
      split at taken <;> cases taken
      rename_i started
      exact .begin started
  | read r => exact effect_of_read taken
  | update r => exact effect_of_update taken
  | create r dispatchId => exact effect_of_create taken
  | commit r position fate => exact effect_of_commit taken
  | abort r => exact effect_of_abort taken
  | outbox event =>
      simp only [step] at taken
      split at taken
      · cases taken
      · rename_i inserts
        obtain ⟨table, stepped, rfl⟩ := Option.map_eq_some_iff.mp taken
        exact .outbox inserts stepped

end PostsMedia.Platform
