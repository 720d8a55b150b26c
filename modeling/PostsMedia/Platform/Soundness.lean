import PostsMedia.Platform.Effects
import PostsMedia.Processing.Coherence

namespace PostsMedia.Platform

open MediaService (WorkerEvent)

open Processing (Rows SameMedia retryDispatch)

/-- The payload that the producers write for a generation of a media under this spelling of its
id. -/
def jobPayload (media : Media) (id dispatchId : String) (generation : Nat) :
    MediaJobPayloadV1 where
  dispatchId := dispatchId
  mediaId := id
  postId := media.postId
  mediaType := media.mediaType
  generation := generation
  processingProfile := "balanced-v1"
  reason := if generation = 1 then .initialUpload else .manualRetry

/-- The dispatch is the one of a producer for its generation of the media. An upload writes the id
of the row, and a retry what its client wrote for it. -/
def BuiltFor (media : Media) (dispatch : ProcessingDispatch) : Prop :=
  ∃ id dispatchId, (if dispatch.generation = 1 then id else uuidColumn id) = media.id ∧
    dispatch = { ProcessingDispatch.ofPayload
        (jobPayload media id dispatchId dispatch.generation) with mediaId := media.id }

/-- A media has one dispatch for each of its generations. -/
structure MediaSound (mediaId : String) (rows : Rows) : Prop where
  id : rows.media.id = mediaId
  leased : rows.media.Leased
  profile : rows.media.processingProfile = "balanced-v1"
  positive : 1 ≤ rows.media.processingGeneration
  generations : rows.dispatches.map (·.generation) =
    List.range' 1 rows.media.processingGeneration
  built : ∀ dispatch ∈ rows.dispatches, BuiltFor rows.media dispatch

/-- An open retry with the lock works on the committed row. -/
def RetrySound (s : State) (r : RetryId) : RetryPhase → Prop
  | .updating id current => ∃ rows, s.stored (uuidColumn id) = some rows ∧
      SameMedia current rows.media ∧
      current.processingGeneration ≤ rows.media.processingGeneration
  | .creating id current updated => s.locks (uuidColumn id) = some r ∧ ∃ rows,
      s.stored (uuidColumn id) = some rows ∧ SameMedia current rows.media ∧
      rows.media.processingStatus = .failed ∧
      rows.media.processingGeneration = current.processingGeneration ∧
      updated = rows.media.retried
  | .committing id updated dispatch => s.locks (uuidColumn id) = some r ∧ ∃ rows,
      s.stored (uuidColumn id) = some rows ∧ rows.media.processingStatus = .failed ∧
      updated = rows.media.retried ∧
      dispatch.generation = rows.media.processingGeneration + 1 ∧ BuiltFor rows.media dispatch
  | _ => True

/-- The rows and the open retries agree. -/
structure Sound (s : State) : Prop where
  media : ∀ mediaId rows, s.stored mediaId = some rows → MediaSound mediaId rows
  retries : ∀ r, RetrySound s r (s.retries r)

section Rows

variable {mediaId : String} {rows : Rows} {media media' : Media} {dispatch : ProcessingDispatch}

theorem jobPayload_same (same : SameMedia media media') (id dispatchId : String)
    (generation : Nat) :
    jobPayload media id dispatchId generation = jobPayload media' id dispatchId generation := by
  simp only [jobPayload, same.postId, same.mediaType]

theorem BuiltFor.same (built : BuiltFor media dispatch) (same : SameMedia media media') :
    BuiltFor media' dispatch := by
  obtain ⟨id, dispatchId, own, equal⟩ := built
  exact ⟨id, dispatchId, own.trans same.id,
    equal.trans (by rw [jobPayload_same same, same.id])⟩

/-- A worker changes neither the fixed columns nor the generation nor the dispatches. -/
theorem worker_frame (leased : rows.media.Leased) (event : WorkerEvent) :
    SameMedia rows.media (event.run rows).media ∧ (event.run rows).media.Leased ∧
      (event.run rows).media.processingGeneration = rows.media.processingGeneration ∧
      (event.run rows).dispatches = rows.dispatches := by
  cases event with
  | claim generation jobId leaseSeconds token now =>
      have frame : (Processing.claim rows generation jobId leaseSeconds token
            now).1.media.processingGeneration = rows.media.processingGeneration ∧
          (Processing.claim rows generation jobId leaseSeconds token now).1.dispatches =
            rows.dispatches := Processing.claim_frame jobId leaseSeconds
      obtain ⟨sameGeneration, sameDispatches⟩ := frame
      refine ⟨(Processing.progress_claim "" rows generation jobId leaseSeconds token now).same, ?_,
        sameGeneration, sameDispatches⟩
      simp only [WorkerEvent.run, Processing.claim]
      split
      · exact Media.claimed_leased ..
      · exact leased
  | createAttempt created =>
      obtain ⟨sameMedia, sameDispatches⟩ := Processing.createAttempt_frame rows created
      refine ⟨?_, ?_, congrArg _ sameMedia, sameDispatches⟩
      · rw [WorkerEvent.run, sameMedia]
        exact .refl _
      · rw [WorkerEvent.run, sameMedia]
        exact leased
  | operate operation generation token now =>
      have frame : (operation.run rows generation token now).1.media.processingGeneration =
            rows.media.processingGeneration ∧
          (operation.run rows generation token now).1.dispatches = rows.dispatches :=
        operation.run_frame
      obtain ⟨sameGeneration, sameDispatches⟩ := frame
      exact ⟨(Processing.progress_run "" operation leased generation token now).same,
        operation.run_leased leased generation token now, sameGeneration, sameDispatches⟩

theorem MediaSound.work (sound : MediaSound mediaId rows) (event : WorkerEvent) :
    MediaSound mediaId (event.run rows) := by
  obtain ⟨same, leased, generation, dispatches⟩ := worker_frame sound.leased event
  refine ⟨same.id ▸ sound.id, leased, same.profile ▸ sound.profile, ?_, ?_, ?_⟩
  · rw [generation]
    exact sound.positive
  · rw [generation, dispatches]
    exact sound.generations
  · rw [dispatches]
    exact fun dispatch member => (sound.built dispatch member).same same

/-- A retry keeps the fixed columns. -/
theorem retried_same (media : Media) : SameMedia media media.retried := ⟨rfl, rfl, rfl, rfl⟩

/-- A committed retry adds the dispatch of the next generation. -/
theorem MediaSound.retry (sound : MediaSound mediaId rows)
    (generation : dispatch.generation = rows.media.processingGeneration + 1)
    (built : BuiltFor rows.media dispatch) :
    MediaSound mediaId { rows with
      media := rows.media.retried
      dispatches := rows.dispatches ++ [dispatch] } where
  id := sound.id
  leased := Media.retried_leased _
  profile := sound.profile
  positive := Nat.le_add_left 1 _
  generations := by
    rw [List.map_append, sound.generations, List.map_singleton, generation]
    show List.range' 1 rows.media.processingGeneration ++ [rows.media.processingGeneration + 1] =
      List.range' 1 (rows.media.processingGeneration + 1)
    rw [List.range'_1_concat, Nat.add_comm]
  built other member := by
    rcases List.mem_append.mp member with old | new
    · exact (sound.built other old).same (retried_same _)
    · rw [List.mem_singleton.mp new]
      exact built.same (retried_same _)

/-- The dispatch of a retry is built for the next generation. -/
theorem builtFor_retryDispatch (same : SameMedia media media')
    (profile : media'.processingProfile = "balanced-v1") (positive : 1 ≤ media.processingGeneration)
    {id : String} (own : uuidColumn id = media'.id) (dispatchId : String) :
    BuiltFor media' (retryDispatch media id dispatchId) := by
  have later : media.processingGeneration + 1 ≠ 1 := by omega
  refine ⟨id, dispatchId, ?_, ?_⟩
  · exact (if_neg later).trans own
  · simp only [retryDispatch, ProcessingDispatch.ofPayload, jobPayload, later, if_false, own,
      same.postId, same.mediaType, same.profile, profile]

/-- A new media has the dispatch of its first generation. -/
theorem mediaSound_created (input : CreateMediaWithDispatchInput) :
    MediaSound input.id ⟨(createWithDispatch input).1, [], [], [(createWithDispatch input).2]⟩ where
  id := rfl
  leased := (createWithDispatch_fresh input).leased
  profile := rfl
  positive := Nat.le_refl 1
  generations := rfl
  built dispatch member := by
    rw [List.mem_singleton.mp member]
    exact ⟨input.id, input.dispatchId, rfl, rfl⟩

end Rows

section Retries

variable {s t : State} {r q : RetryId}

/-- What the other retries rely on: a row keeps its fixed columns, and its media while they hold
the lock. -/
structure Keeps (s t : State) (r : RetryId) : Prop where
  stored : ∀ mediaId rows, s.stored mediaId = some rows → ∃ rows', t.stored mediaId = some rows' ∧
    SameMedia rows.media rows'.media ∧
    rows.media.processingGeneration ≤ rows'.media.processingGeneration ∧
    (s.locks mediaId = some r → rows'.media = rows.media)
  locks : ∀ mediaId, s.locks mediaId = some r → t.locks mediaId = some r

theorem RetrySound.later {phase : RetryPhase} (sound : RetrySound s r phase)
    (keeps : Keeps s t r) : RetrySound t r phase := by
  cases phase with
  | updating id current =>
      obtain ⟨rows, present, same, older⟩ := sound
      obtain ⟨rows', present', same', newer, _⟩ := keeps.stored (uuidColumn id) rows present
      exact ⟨rows', present', same.trans same', Nat.le_trans older newer⟩
  | creating id current updated =>
      obtain ⟨locked, rows, present, same, failed, generation, equal⟩ := sound
      obtain ⟨rows', present', _, _, kept⟩ := keeps.stored (uuidColumn id) rows present
      refine ⟨keeps.locks (uuidColumn id) locked, rows', present', ?_⟩
      rw [kept locked]
      exact ⟨same, failed, generation, equal⟩
  | committing id updated dispatch =>
      obtain ⟨locked, rows, present, failed, equal, generation, built⟩ := sound
      obtain ⟨rows', present', _, _, kept⟩ := keeps.stored (uuidColumn id) rows present
      refine ⟨keeps.locks (uuidColumn id) locked, rows', present', ?_⟩
      rw [kept locked]
      exact ⟨failed, equal, generation, built⟩
  | _ => trivial

/-- An unchanged table keeps everything that a retry with the same locks relies on. -/
theorem keeps_of_stored (stored : t.stored = s.stored)
    (locks : ∀ mediaId, s.locks mediaId = some r → t.locks mediaId = some r) : Keeps s t r where
  stored _ rows present :=
    ⟨rows, stored ▸ present, .refl _, Nat.le_refl _, fun _ => rfl⟩
  locks := locks

/-- The phase of one retry changes, and the others keep what they rely on. -/
theorem Sound.move (sound : Sound s) (r : RetryId)
    (media : ∀ mediaId rows, t.stored mediaId = some rows → MediaSound mediaId rows)
    (keeps : ∀ q, q ≠ r → Keeps s t q) (others : ∀ q, q ≠ r → t.retries q = s.retries q)
    (own : RetrySound t r (t.retries r)) : Sound t where
  media := media
  retries q := by
    by_cases same : q = r
    · exact same ▸ own
    · rw [others q same]
      exact (sound.retries q).later (keeps q same)

/-- A retry that goes on without a write. -/
theorem Sound.goto (sound : Sound s) {phase : RetryPhase} (own : RetrySound s r phase) :
    Sound (s.goto r phase) := by
  refine sound.move r sound.media (fun q _ => keeps_of_stored rfl fun _ held => held) ?_ ?_
  · intro q different
    simp [State.goto, different]
  · have moved : RetrySound (s.goto r phase) r phase :=
      own.later (keeps_of_stored rfl fun _ held => held)
    simpa [State.goto] using moved

/-- The end of a transaction leaves the locks of the others alone. -/
theorem Sound.finish (sound : Sound s) {phase : RetryPhase}
    (ended : ∀ u : State, RetrySound u r phase) : Sound (s.finish r phase) := by
  refine sound.move r sound.media (fun q different => keeps_of_stored rfl ?_) ?_ ?_
  · intro mediaId held
    have foreign : s.locks mediaId ≠ some r := by
      rw [held]
      exact fun equal => different (Option.some.inj equal)
    simpa [State.finish, State.goto, foreign] using held
  · intro q different
    simp [State.finish, State.goto, different]
  · simpa [State.finish, State.goto] using ended _

/-- A write of one media that respects the lock of its row keeps everything sound. -/
theorem Sound.store (sound : Sound s) {mediaId : String} {rows after : Rows}
    (present : s.stored mediaId = some rows) (media : MediaSound mediaId after)
    (same : SameMedia rows.media after.media)
    (newer : rows.media.processingGeneration ≤ after.media.processingGeneration)
    (unlocked : (s.locks mediaId).isSome = true → after.media = rows.media) :
    Sound (s.store mediaId after) where
  media other found := by
    intro stored
    by_cases equal : other = mediaId
    · subst equal
      simp only [State.store, Function.update_self, Option.some.injEq] at stored
      exact stored ▸ media
    · simp only [State.store, Function.update_of_ne equal] at stored
      exact sound.media other found stored
  retries q := by
    apply (sound.retries q).later
    refine ⟨fun other found stored => ?_, fun _ held => held⟩
    by_cases equal : other = mediaId
    · subst equal
      rw [present] at stored
      cases stored
      exact ⟨after, by simp [State.store], same, newer, fun held => unlocked (by simp [held])⟩
    · exact ⟨found, by simpa [State.store, equal] using stored, .refl _, Nat.le_refl _,
        fun _ => rfl⟩

/-- A new media disturbs nobody. -/
theorem Sound.create (sound : Sound s) {mediaId : String} {rows : Rows}
    (absent : s.stored mediaId = none) (media : MediaSound mediaId rows) :
    Sound (s.store mediaId rows) where
  media other found := by
    intro stored
    by_cases equal : other = mediaId
    · subst equal
      simp only [State.store, Function.update_self, Option.some.injEq] at stored
      exact stored ▸ media
    · simp only [State.store, Function.update_of_ne equal] at stored
      exact sound.media other found stored
  retries q := by
    apply (sound.retries q).later
    refine ⟨fun other found stored => ?_, fun _ held => held⟩
    have different : other ≠ mediaId := by
      rintro rfl
      rw [absent] at stored
      cases stored
    exact ⟨found, by simpa [State.store, different] using stored, .refl _, Nat.le_refl _,
      fun _ => rfl⟩

/-- The outbox and the recorded commits do not matter for the rows. -/
theorem Sound.transfer (sound : Sound s) (stored : t.stored = s.stored) (locks : t.locks = s.locks)
    (retries : t.retries = s.retries) : Sound t where
  media mediaId rows present := sound.media mediaId rows (stored ▸ present)
  retries q := by
    rw [retries]
    exact (sound.retries q).later (keeps_of_stored stored fun _ held => locks ▸ held)

/-- The inserts of an upload bring sound media. -/
theorem Sound.upload {created : List (Media × ProcessingDispatch)} (sound : Sound s)
    (distinct : (created.map (·.1.id)).Nodup)
    (fresh : ∀ pair ∈ created, s.stored pair.1.id = none)
    (built : ∀ pair ∈ created, ∃ input, pair = createWithDispatch input)
    (positions : String → Nat) :
    Sound (s.upload created positions) := by
  induction created generalizing s with
  | nil => exact sound
  | cons pair rest ih =>
      obtain ⟨media, dispatch⟩ := pair
      rw [List.map_cons, List.nodup_cons] at distinct
      obtain ⟨input, equal⟩ := built _ (List.mem_cons_self ..)
      have absent := fresh _ (List.mem_cons_self ..)
      have single : MediaSound media.id ⟨media, [], [], [dispatch]⟩ := by
        have created := mediaSound_created input
        rw [← equal] at created
        have named : input.id = media.id := (congrArg (·.1.id) equal).symm
        exact named ▸ created
      have first := sound.create absent single
      have next : Sound { s.store media.id ⟨media, [], [], [dispatch]⟩ with
          outbox := s.outbox.insert dispatch (positions dispatch.id) } :=
        first.transfer rfl rfl rfl
      apply ih next distinct.2
      · intro other member
        have different : other.1.id ≠ media.id := by
          intro same
          exact distinct.1 (same ▸ List.mem_map_of_mem member)
        simpa [State.store, different] using fresh other (List.mem_cons_of_mem _ member)
      · exact fun other member => built other (List.mem_cons_of_mem _ member)

/-- The rows of an upload keep the ids of its files. -/
theorem createAllWithDispatch_ids (postId : String) (start : Nat)
    (promoted : List PromotedUpload) :
    (createAllWithDispatch postId start promoted).map (·.1.id) = promoted.map (·.mediaId) ∧
      (createAllWithDispatch postId start promoted).map (·.2.id) =
        promoted.map (·.dispatchId) := by
  have firsts : promoted.zipIdx.map Prod.fst = promoted := List.zipIdx_map_fst 0 promoted
  constructor
  · have ids := congrArg (List.map (·.mediaId)) firsts
    rw [List.map_map] at ids
    rw [createAllWithDispatch, List.map_map]
    exact ids
  · have ids := congrArg (List.map (·.dispatchId)) firsts
    rw [List.map_map] at ids
    rw [createAllWithDispatch, List.map_map]
    exact ids

theorem mem_createAllWithDispatch {postId : String} {start : Nat} {promoted : List PromotedUpload}
    {pair : Media × ProcessingDispatch}
    (member : pair ∈ createAllWithDispatch postId start promoted) :
    ∃ input, pair = createWithDispatch input := by
  obtain ⟨_, _, rfl⟩ := List.mem_map.mp member
  exact ⟨_, rfl⟩

variable {settings : Outbox.Settings}

/-- The conditional update of a retry takes the lock of the row that it read. -/
theorem Sound.lock (sound : Sound s) {id : String} {current : Media} {rows : Rows}
    (started : s.retries r = .updating id current) (unlocked : s.locks (uuidColumn id) = none)
    (present : s.stored (uuidColumn id) = some rows)
    (failed : rows.media.processingStatus = .failed)
    (unchanged : rows.media.processingGeneration = current.processingGeneration) :
    Sound { s.goto r (.creating id current rows.media.retried) with
      locks := Function.update s.locks (uuidColumn id) (some r) } := by
  have own := sound.retries r
  rw [started] at own
  obtain ⟨found, stored, same, _⟩ := own
  rw [present] at stored
  cases stored
  refine sound.move r sound.media (fun q _ => keeps_of_stored rfl ?_) ?_ ?_
  · intro other held
    have different : other ≠ uuidColumn id := by
      rintro rfl
      rw [unlocked] at held
      cases held
    simpa [different] using held
  · intro q different
    simp [State.goto, different]
  · have granted : RetrySound
        { s.goto r (.creating id current rows.media.retried) with
          locks := Function.update s.locks (uuidColumn id) (some r) } r
        (.creating id current rows.media.retried) :=
      ⟨Function.update_self .., rows, present, same, failed, unchanged, rfl⟩
    simpa [State.goto] using granted

/-- The dispatch of a retry is built for the row that it locked. -/
theorem Sound.dispatch (sound : Sound s) {id : String} {current updated : Media}
    (started : s.retries r = .creating id current updated) (dispatchId : String) :
    Sound (s.goto r (.committing id updated (retryDispatch current id dispatchId))) := by
  have own := sound.retries r
  rw [started] at own
  obtain ⟨locked, rows, present, same, failed, generation, equal⟩ := own
  have media := sound.media (uuidColumn id) rows present
  have positive : 1 ≤ current.processingGeneration := generation ▸ media.positive
  apply sound.goto
  refine ⟨locked, rows, present, failed, equal, ?_, ?_⟩
  · rw [generation]
    rfl
  · exact builtFor_retryDispatch same media.profile positive media.id.symm dispatchId

/-- A committed retry keeps everything sound. -/
theorem Sound.commit (sound : Sound s) {id : String} {rows : Rows} {updated : Media}
    {dispatch : ProcessingDispatch} (started : s.retries r = .committing id updated dispatch)
    (present : s.stored (uuidColumn id) = some rows) (position : Nat) {phase : RetryPhase}
    (ended : ∀ u : State, RetrySound u r phase) :
    Sound ((s.apply r (uuidColumn id) rows updated dispatch position).finish r phase) := by
  have own := sound.retries r
  rw [started] at own
  obtain ⟨locked, found, stored, failed, rfl, generation, built⟩ := own
  rw [present] at stored
  cases stored
  have media := (sound.media (uuidColumn id) rows present).retry generation built
  refine sound.move r ?_ (fun q different => ⟨?_, ?_⟩) ?_ ?_
  · intro other found stored
    by_cases equal : other = uuidColumn id
    · subst equal
      simp only [State.finish, State.goto, State.apply, State.store, Function.update_self,
        Option.some.injEq] at stored
      exact stored ▸ media
    · simp only [State.finish, State.goto, State.apply, State.store,
        Function.update_of_ne equal] at stored
      exact sound.media other found stored
  · intro other found stored
    by_cases equal : other = uuidColumn id
    · subst equal
      rw [present] at stored
      cases stored
      refine ⟨{ rows with
          media := rows.media.retried
          dispatches := rows.dispatches ++ [dispatch] },
        by simp [State.finish, State.goto, State.apply, State.store], retried_same _,
        Nat.le_succ _, fun held => ?_⟩
      rw [locked] at held
      exact absurd (Option.some.inj held).symm different
    · exact ⟨found, by simpa [State.finish, State.goto, State.apply, State.store, equal] using
        stored, .refl _, Nat.le_refl _, fun _ => rfl⟩
  · intro other held
    have foreign : s.locks other ≠ some r := by
      rw [held]
      exact fun equal => different (Option.some.inj equal)
    simpa [State.finish, State.goto, State.apply, State.store, foreign] using held
  · intro q different
    simp [State.finish, State.goto, State.apply, State.store, different]
  · simpa [State.finish, State.goto] using ended _

/-- Every event keeps the rows and the open retries sound. -/
theorem sound_step {event : Event} (sound : Sound s) (taken : step settings s event = some t) :
    Sound t := by
  cases effect_of_step taken with
  | @upload postId start promoted positions fresh =>
      obtain ⟨ids, _⟩ := createAllWithDispatch_ids postId start promoted
      apply sound.upload
      · rw [ids]
        exact fresh.1
      · intro pair member
        have named : pair.1.id ∈ promoted.map (·.mediaId) := ids ▸ List.mem_map_of_mem member
        obtain ⟨upload, inside, same⟩ := List.mem_map.mp named
        rw [← same]
        exact Option.isNone_iff_eq_none.mp (fresh.2.2 upload inside).1
      · exact fun _ => mem_createAllWithDispatch
  | @work mediaId worker rows present unlocked =>
      have media := sound.media mediaId rows present
      obtain ⟨same, _, generation, _⟩ := worker_frame media.leased worker
      refine sound.store present (media.work worker) same (Nat.le_of_eq generation.symm) ?_
      intro held
      cases worker with
      | createAttempt created => exact (Processing.createAttempt_frame rows created).1
      | _ => exact absurd ⟨rfl, held⟩ unlocked
  | begin | reject | lose => exact sound.goto trivial
  | read _ present => exact sound.goto ⟨_, present, .refl _, Nat.le_refl _⟩
  | lock started unlocked present failed unchanged =>
      exact sound.lock started unlocked present failed unchanged
  | create started => exact sound.dispatch started _
  | commit started present _ _ answer =>
      apply sound.commit started present
      rcases answer with rfl | rfl
      · exact fun _ => trivial
      · exact fun _ => trivial
  | rollback => exact sound.finish fun _ => trivial
  | outbox => exact sound.transfer rfl rfl rfl

theorem sound_initial (initial : (machine settings).initial s) : Sound s := by
  obtain ⟨_, absent, _, idle, _⟩ := initial
  refine ⟨fun mediaId rows present => ?_, fun r => ?_⟩
  · rw [absent mediaId] at present
    cases present
  · rw [idle r]
    trivial

theorem sound_of_reachable {guard : State → Event → Prop}
    (reached : (machine settings).Reachable guard s) : Sound s :=
  reached.invariant (fun _ => sound_initial) fun _ _ _ _ taken sound => sound_step sound taken

end Retries

end PostsMedia.Platform
