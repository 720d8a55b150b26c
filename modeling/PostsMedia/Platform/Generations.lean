import Mathlib.Data.List.Nodup
import PostsMedia.Platform.Changes
import PostsMedia.Queues.Jobs
import PostsMedia.Queues.Lifecycle

namespace PostsMedia.Platform

open MediaService (WorkerEvent)

open Processing (Rows)

/-- How often a retry of this generation of the media committed. -/
def State.retriesFrom (s : State) (mediaId : String) (generation : Nat) : Nat :=
  s.commits.countP fun commit => commit.mediaId = mediaId ∧ commit.generation = generation

/-- The retry that takes a step. -/
def Event.retry : Event → Option RetryId
  | .begin r _ | .read r | .update r | .create r _ | .commit r _ _ | .abort r => some r
  | _ => none

/-- The recorded commits count the generations of each media. -/
structure Counted (s : State) : Prop where
  stored : ∀ mediaId rows, s.stored mediaId = some rows → ∀ generation,
    s.retriesFrom mediaId generation =
      if 1 ≤ generation ∧ generation < rows.media.processingGeneration then 1 else 0
  absent : ∀ mediaId, s.stored mediaId = none → ∀ generation, s.retriesFrom mediaId generation = 0
  ended : ∀ commit ∈ s.commits, (s.retries commit.retry).ended = true

section Commits

variable {settings : Outbox.Settings} {s t : State} {event : Event}

/-- A step commits a retry of a failed generation, or it commits nothing. -/
theorem commits_of_step (sound : Sound s) (taken : step settings s event = some t) :
    (event.commits = false ∧ t.commits = s.commits ∧
      ∀ r, (s.retries r).ended = true → t.retries r = s.retries r) ∨
    ∃ r mediaId rows after, s.stored mediaId = some rows ∧
      t.stored = Function.update s.stored mediaId (some after) ∧
      after.media.processingGeneration = rows.media.processingGeneration + 1 ∧
      t.commits = ⟨r, mediaId, rows.media.processingGeneration⟩ :: s.commits ∧
      (t.retries r).ended = true ∧ ∀ q, q ≠ r → t.retries q = s.retries q := by
  have moved {r : RetryId} {phase : RetryPhase} (started : (s.retries r).ended = false) :
      ∀ q, (s.retries q).ended = true → Function.update s.retries r phase q = s.retries q := by
    intro q done
    apply Function.update_of_ne
    rintro rfl
    rw [started] at done
    cases done
  cases effect_of_step taken with
  | @upload postId start promoted positions _ =>
      obtain ⟨retries, commits⟩ := upload_retries (s := s)
        (createAllWithDispatch postId start promoted) positions
      exact .inl ⟨rfl, commits, fun _ _ => by rw [retries]⟩
  | work | outbox => exact .inl ⟨rfl, rfl, fun _ _ => rfl⟩
  | begin started | read started | reject started | lock started | lose started | create started =>
      exact .inl ⟨rfl, rfl, moved (by rw [started]; rfl)⟩
  | rollback started quiet => exact .inl ⟨quiet, rfl, moved started⟩
  | @commit r position fate id updated dispatch rows phase started present _ _ answer =>
      have own := sound.retries r
      rw [started] at own
      obtain ⟨_, found, stored, _, rfl, _⟩ := own
      rw [present] at stored
      cases stored
      refine .inr ⟨r, uuidColumn id, rows, _, present, rfl, rfl, rfl, ?_, fun q different =>
        Function.update_of_ne different ..⟩
      rcases answer with rfl | rfl
      · simp [State.finish, State.goto, RetryPhase.ended]
      · simp [State.finish, State.goto, RetryPhase.ended]

/-- Only a committed retry of a failed row changes a generation. -/
theorem MediaChange.generation {mediaId : String} {rows rows' : Rows}
    (change : MediaChange event mediaId rows rows') (leased : rows.media.Leased) :
    rows'.media.processingGeneration = rows.media.processingGeneration ∨
      rows'.media.processingGeneration = rows.media.processingGeneration + 1 ∧
        rows.media.processingStatus = .failed ∧ event.commits = true := by
  cases change with
  | same => exact .inl rfl
  | work worker => exact .inl (worker_frame leased worker).2.2.1
  | retry r position fate dispatch committed effective failed =>
      subst committed
      exact .inr ⟨rfl, failed, effective⟩

theorem counted_step (sound : Sound s) (counted : Counted s)
    (taken : step settings s event = some t) : Counted t := by
  rcases commits_of_step sound taken with ⟨quiet, commits, kept⟩ |
    ⟨r, mediaId, rows, after, present, table, next, commits, done, others⟩
  · have counts (mediaId : String) (generation : Nat) :
        t.retriesFrom mediaId generation = s.retriesFrom mediaId generation := by
      rw [State.retriesFrom, commits]
      rfl
    refine ⟨fun mediaId rows' present' generation => ?_, fun mediaId absent' generation => ?_, ?_⟩
    · rw [counts]
      cases present : s.stored mediaId with
      | none =>
          obtain ⟨input, rfl⟩ := created_of_absent taken present present'
          have first : (createWithDispatch input).1.processingGeneration = 1 := rfl
          rw [counted.absent mediaId present generation, first, if_neg]
          omega
      | some rows =>
          obtain ⟨found, stored, change⟩ := change_of_step sound taken present
          rw [present'] at stored
          cases stored
          rcases change.generation (sound.media mediaId rows present).leased with
            same | ⟨_, _, loud⟩
          · rw [counted.stored mediaId rows present generation, same]
          · rw [quiet] at loud
            cases loud
    · rw [counts]
      apply counted.absent
      cases present : s.stored mediaId with
      | none => rfl
      | some rows =>
          obtain ⟨found, stored, _⟩ := change_of_step sound taken present
          rw [absent'] at stored
          cases stored
    · rw [commits]
      intro commit member
      have done := counted.ended commit member
      rw [kept commit.retry done]
      exact done
  · have counts (name : String) (generation : Nat) : t.retriesFrom name generation =
        s.retriesFrom name generation +
          if name = mediaId ∧ generation = rows.media.processingGeneration then 1 else 0 := by
      simp only [State.retriesFrom, commits, List.countP_cons, decide_eq_true_eq]
      congr 1
      simp only [eq_comm]
    refine ⟨fun name found stored generation => ?_, fun name absent generation => ?_, ?_⟩
    · rw [counts]
      by_cases same : name = mediaId
      · subst same
        rw [table, Function.update_self] at stored
        cases stored
        rw [counted.stored name rows present generation, next]
        simp only [true_and]
        have positive := (sound.media name rows present).positive
        split <;> split <;> split <;> omega
      · rw [table, Function.update_of_ne same] at stored
        rw [counted.stored name found stored generation]
        simp [same]
    · have different : name ≠ mediaId := by
        rintro rfl
        rw [table, Function.update_self] at absent
        cases absent
      rw [table, Function.update_of_ne different] at absent
      rw [counts, counted.absent name absent generation]
      simp [different]
    · rw [commits]
      intro commit member
      rcases List.mem_cons.mp member with rfl | old
      · exact done
      · by_cases same : commit.retry = r
        · rw [same]
          exact done
        · rw [others commit.retry same]
          exact counted.ended commit old

theorem counted_of_reachable {guard : State → Event → Prop}
    (reached : (machine settings).Reachable guard s) : Counted s := by
  apply reached.strengthen Sound (fun _ => sound_of_reachable)
  · intro start initial
    obtain ⟨_, absent, _, _, commits⟩ := initial
    refine ⟨fun mediaId rows present => ?_, fun mediaId _ generation => ?_, by simp [commits]⟩
    · rw [absent mediaId] at present
      cases present
    · simp [State.retriesFrom, commits]
  · exact fun _ _ _ sound _ _ taken counted => counted_step sound counted taken

end Commits

/-- The runs in which no claim of the present generation finds a row failed. -/
def LeavesFailed (s : State) : Event → Prop
  | .work mediaId (.claim generation _ _ _ _) =>
      match s.stored mediaId with
      | some rows => rows.media.processingStatus = .failed →
          generation ≠ rows.media.processingGeneration
      | none => True
  | _ => True

instance (s : State) (event : Event) : Decidable (LeavesFailed s event) := by
  unfold LeavesFailed
  rcases event
  case work mediaId statement =>
    rcases statement
    case claim =>
      dsimp only
      generalize s.stored mediaId = stored
      rcases stored <;> infer_instance
    all_goals infer_instance
  all_goals infer_instance

/-- The row still waits for a retry of this generation, or a retry committed it. -/
def Contested (s : State) (mediaId : String) (generation : Nat) : Prop :=
  ∃ rows, s.stored mediaId = some rows ∧ 1 ≤ generation ∧
    (rows.media.processingStatus = .failed ∧ rows.media.processingGeneration = generation ∨
      generation < rows.media.processingGeneration)

/-- A retry that lost its row lost it to a retry, and one that returned has committed. -/
def RaceSound (s : State) (r : RetryId) : RetryPhase → Prop
  | .updating id current => Contested s (uuidColumn id) current.processingGeneration
  | .lost mediaId generation => ∃ rows, s.stored mediaId = some rows ∧ 1 ≤ generation ∧
      generation < rows.media.processingGeneration
  | .returned updated => ∃ generation, ⟨r, updated.id, generation⟩ ∈ s.commits ∧
      updated.processingGeneration = generation + 1
  | _ => True

section Races

variable {settings : Outbox.Settings} {s t : State} {event : Event}

/-- No other worker statement writes a failed row. -/
theorem work_of_failed {rows : Rows} (leased : rows.media.Leased)
    (failed : rows.media.processingStatus = .failed) {worker : WorkerEvent}
    (kept : ∀ generation jobId leaseSeconds token now,
      worker = .claim generation jobId leaseSeconds token now →
        generation ≠ rows.media.processingGeneration) :
    (worker.run rows).media = rows.media := by
  have unheld : rows.media.processingLeaseToken = none := by
    have token := leased.token
    simpa [failed] using token
  cases worker with
  | claim generation jobId leaseSeconds token now =>
      have other := kept generation jobId leaseSeconds token now rfl
      have refused : rows.media.claimable generation now ≠ true := by
        simp [Media.claimable, Ne.symm other]
      simp only [WorkerEvent.run, Processing.claim, if_neg refused]
  | createAttempt created => exact (Processing.createAttempt_frame rows created).1
  | operate operation generation token now =>
      rw [WorkerEvent.run, operation.run_of_lost (by simp [unheld])]

/-- In a run without such claims a contested row stays contested. -/
theorem Contested.later (sound : Sound s) {mediaId : String} {generation : Nat}
    (contested : Contested s mediaId generation) (admitted : LeavesFailed s event)
    (taken : step settings s event = some t) : Contested t mediaId generation := by
  obtain ⟨rows, present, positive, waits⟩ := contested
  obtain ⟨rows', present', change⟩ := change_of_step sound taken present
  refine ⟨rows', present', positive, ?_⟩
  have media := sound.media mediaId rows present
  cases change with
  | same => exact waits
  | work worker ran =>
      rcases waits with ⟨failed, equal⟩ | past
      · left
        rw [work_of_failed media.leased failed]
        · exact ⟨failed, equal⟩
        · rintro other jobId leaseSeconds token now rfl
          subst ran
          simp only [LeavesFailed, present] at admitted
          exact admitted failed
      · right
        rw [(worker_frame media.leased worker).2.2.1]
        exact past
  | retry =>
      right
      rcases waits with ⟨_, equal⟩ | past
      · exact Nat.lt_succ_of_le (Nat.le_of_eq equal.symm)
      · exact Nat.lt_succ_of_lt past

/-- A generation that is past stays past. -/
theorem past_later (sound : Sound s) {mediaId : String} {rows : Rows} {generation : Nat}
    (present : s.stored mediaId = some rows)
    (past : generation < rows.media.processingGeneration)
    (taken : step settings s event = some t) :
    ∃ rows', t.stored mediaId = some rows' ∧ generation < rows'.media.processingGeneration := by
  obtain ⟨rows', present', change⟩ := change_of_step sound taken present
  refine ⟨rows', present', ?_⟩
  rcases change.generation (sound.media mediaId rows present).leased with same | ⟨next, _⟩
  · omega
  · omega

/-- Commits are never forgotten. -/
theorem commits_subset (sound : Sound s) (taken : step settings s event = some t) :
    s.commits ⊆ t.commits := by
  rcases commits_of_step sound taken with ⟨_, same, _⟩ | ⟨_, _, _, _, _, _, _, added, _⟩
  · rw [same]
    exact List.Subset.refl _
  · rw [added]
    exact List.subset_cons_self ..

/-- The phases of the other retries keep what they know about the races. -/
theorem RaceSound.later {r : RetryId} {phase : RetryPhase} (sound : Sound s)
    (race : RaceSound s r phase) (admitted : LeavesFailed s event)
    (taken : step settings s event = some t) : RaceSound t r phase := by
  cases phase with
  | updating id current => exact Contested.later sound race admitted taken
  | lost mediaId generation =>
      obtain ⟨rows, present, positive, past⟩ := race
      obtain ⟨rows', present', past'⟩ := past_later sound present past taken
      exact ⟨rows', present', positive, past'⟩
  | returned updated =>
      obtain ⟨generation, member, next⟩ := race
      exact ⟨generation, commits_subset sound taken member, next⟩
  | _ => trivial

/-- The conditional update of a retry fails only behind another retry. -/
theorem raceSound_step (sound : Sound s) (race : ∀ r, RaceSound s r (s.retries r))
    (admitted : LeavesFailed s event) (taken : step settings s event = some t) :
    ∀ r, RaceSound t r (t.retries r) := by
  have later (q : RetryId) (same : t.retries q = s.retries q) : RaceSound t q (t.retries q) := by
    rw [same]
    exact (race q).later sound admitted taken
  have moved {r : RetryId} {phase : RetryPhase}
      (changed : t.retries = Function.update s.retries r phase) (own : RaceSound t r phase) :
      ∀ q, RaceSound t q (t.retries q) := by
    intro q
    by_cases same : q = r
    · subst same
      rw [changed, Function.update_self]
      exact own
    · apply later
      rw [changed, Function.update_of_ne same]
  cases effect_of_step taken with
  | @upload postId start promoted positions _ =>
      have same := (upload_retries (s := s) (createAllWithDispatch postId start promoted)
        positions).1
      exact fun q => later q (congrFun same q)
  | work | outbox => exact fun q => later q rfl
  | begin | reject | lock | create | rollback => exact moved rfl trivial
  | @read r id rows _ present failed =>
      have positive := (sound.media (uuidColumn id) rows present).positive
      exact moved rfl ⟨rows, present, positive, .inl ⟨failed, rfl⟩⟩
  | @lose r id current started other =>
      have own := race r
      rw [started] at own
      obtain ⟨rows, present, positive, waits⟩ := own
      have past := waits.resolve_left (other rows present)
      exact moved rfl ⟨rows, present, positive, past⟩
  | @commit r position fate id updated dispatch rows phase started present _ _ answer =>
      have own := sound.retries r
      rw [started] at own
      obtain ⟨_, found, stored, _, rfl, _⟩ := own
      rw [present] at stored
      cases stored
      rcases answer with rfl | rfl
      · refine moved rfl ⟨rows.media.processingGeneration, ?_, rfl⟩
        have named : rows.media.retried.id = uuidColumn id :=
          (sound.media (uuidColumn id) rows present).id
        rw [named]
        exact List.mem_cons_self ..
      · exact moved rfl trivial

theorem raceSound_of_reachable (reached : (machine settings).Reachable LeavesFailed s) :
    ∀ r, RaceSound s r (s.retries r) := by
  apply reached.strengthen Sound (fun _ => sound_of_reachable)
  · intro start initial r
    obtain ⟨_, _, _, idle, _⟩ := initial
    rw [idle r]
    trivial
  · exact fun _ _ _ sound _ admitted taken race => raceSound_step sound race admitted taken

end Races

/-- A media has exactly one dispatch for each of its generations, and only a committed retry of a
failed row starts the next one. -/
structure DispatchLaw (m : Machine State Event) : Prop where
  generations : ∀ s, m.Reachable Machine.anything s → ∀ mediaId rows,
    s.stored mediaId = some rows →
    rows.dispatches.map (·.generation) = List.range' 1 rows.media.processingGeneration
  dispatches : ∀ s, m.Reachable Machine.anything s → ∀ mediaId rows,
    s.stored mediaId = some rows → ∀ dispatch ∈ rows.dispatches, dispatch.mediaId = mediaId ∧
      dispatch.reason = if dispatch.generation = 1 then .initialUpload else .manualRetry
  outbox : ∀ s, m.Reachable Machine.anything s → ∀ dispatch ∈ s.outbox.rows, Produced s dispatch
  jobs : ∀ s, m.Reachable Machine.anything s → ∀ mediaId rows mediaId' rows',
    s.stored mediaId = some rows → s.stored mediaId' = some rows' →
    ∀ dispatch ∈ rows.dispatches, ∀ dispatch' ∈ rows'.dispatches,
      dispatch.jobId = dispatch'.jobId → mediaId = mediaId' ∧ dispatch = dispatch'
  next : ∀ s event t, m.Reachable Machine.anything s → m.step s event = some t →
    ∀ mediaId rows, s.stored mediaId = some rows → ∃ rows', t.stored mediaId = some rows' ∧
      (rows'.media.processingGeneration = rows.media.processingGeneration ∨
        rows'.media.processingGeneration = rows.media.processingGeneration + 1 ∧
          rows.media.processingStatus = .failed ∧ event.commits = true)
  once : ∀ s, m.Reachable Machine.anything s → ∀ mediaId rows, s.stored mediaId = some rows →
    ∀ generation, s.retriesFrom mediaId generation =
      if 1 ≤ generation ∧ generation < rows.media.processingGeneration then 1 else 0
  rejected : ∀ s, m.Reachable Machine.anything s → ∀ r, (s.retries r).error.isSome = true →
    ∀ commit ∈ s.commits, commit.retry ≠ r
  quiet : ∀ s event t, m.Reachable Machine.anything s → m.step s event = some t →
    event.retry.isSome = true → event.commits = false → t.stored = s.stored ∧ t.outbox = s.outbox

/-- A retry that read the failed row of a generation and lost it lost it to the one retry that
committed, and a retry that returned did commit. -/
def RaceLaw (m : Machine State Event) (guard : State → Event → Prop) : Prop :=
  ∀ s, m.Reachable guard s → ∀ r,
    (∀ mediaId generation, s.retries r = .lost mediaId generation →
      s.retriesFrom mediaId generation = 1) ∧
    ∀ updated, s.retries r = .returned updated → ∃ generation,
      ⟨r, updated.id, generation⟩ ∈ s.commits ∧ updated.processingGeneration = generation + 1

section Laws

variable {settings : Outbox.Settings} {s t : State} {event : Event}

/-- A step of a retry that does not commit changes no table. -/
theorem quiet_step (taken : step settings s event = some t) (retry : event.retry.isSome = true)
    (quiet : event.commits = false) : t.stored = s.stored ∧ t.outbox = s.outbox := by
  cases effect_of_step taken with
  | upload | work | outbox => cases retry
  | commit _ _ _ effective _ =>
      rw [Event.commits, effective] at quiet
      cases quiet
  | begin | read | reject | lock | lose | create | rollback => exact ⟨rfl, rfl⟩

/-- A dispatch of a media has its id, and its job id names the generation and a spelling of the
media. -/
theorem MediaSound.dispatch {mediaId : String} {rows : Rows} (sound : MediaSound mediaId rows)
    {dispatch : ProcessingDispatch} (member : dispatch ∈ rows.dispatches) :
    dispatch.mediaId = mediaId ∧
      dispatch.reason = (if dispatch.generation = 1 then .initialUpload else .manualRetry) ∧
      ∃ id, (if dispatch.generation = 1 then id else uuidColumn id) = mediaId ∧
        dispatch.jobId = mediaJobId id dispatch.generation := by
  obtain ⟨id, dispatchId, named, built⟩ := sound.built dispatch member
  have owner : dispatch.mediaId = mediaId := by
    rw [built]
    exact sound.id
  have reason : dispatch.reason =
      if dispatch.generation = 1 then .initialUpload else .manualRetry := by
    conv_lhs => rw [built]
    rfl
  have jobId : dispatch.jobId = mediaJobId id dispatch.generation := by
    conv_lhs => rw [built]
    rfl
  exact ⟨owner, reason, id, named.trans sound.id, jobId⟩

/-- Every dispatch has a job id of its own. -/
theorem eq_of_jobId (sound : Sound s) {mediaId mediaId' : String} {rows rows' : Rows}
    (present : s.stored mediaId = some rows) (present' : s.stored mediaId' = some rows')
    {dispatch dispatch' : ProcessingDispatch} (member : dispatch ∈ rows.dispatches)
    (member' : dispatch' ∈ rows'.dispatches) (same : dispatch.jobId = dispatch'.jobId) :
    mediaId = mediaId' ∧ dispatch = dispatch' := by
  have media := sound.media mediaId rows present
  have media' := sound.media mediaId' rows' present'
  obtain ⟨_, _, id, named, jobId⟩ := media.dispatch member
  obtain ⟨_, _, id', named', jobId'⟩ := media'.dispatch member'
  rw [jobId, jobId'] at same
  obtain ⟨rfl, generation⟩ := mediaJobId_injective same
  obtain rfl : mediaId = mediaId' := by rw [← named, ← named', generation]
  rw [present] at present'
  cases present'
  have distinct : (rows.dispatches.map (·.generation)).Nodup := by
    rw [media.generations]
    exact List.nodup_range'
  exact ⟨rfl, List.inj_on_of_nodup_map distinct member member' generation⟩

theorem machine_dispatchLaw (settings : Outbox.Settings) : DispatchLaw (machine settings) where
  generations s reached mediaId rows present :=
    ((sound_of_reachable reached).media mediaId rows present).generations
  dispatches s reached mediaId rows present dispatch member := by
    have named := ((sound_of_reachable reached).media mediaId rows present).dispatch member
    exact ⟨named.1, named.2.1⟩
  outbox s reached dispatch member :=
    ((outboxSound_of_reachable reached).2.rows dispatch member).1
  jobs s reached mediaId rows mediaId' rows' present present' dispatch member dispatch' member' :=
    eq_of_jobId (sound_of_reachable reached) present present' member member'
  next s event t reached taken mediaId rows present := by
    have sound := sound_of_reachable reached
    obtain ⟨rows', present', change⟩ := change_of_step sound taken present
    exact ⟨rows', present', change.generation (sound.media mediaId rows present).leased⟩
  once s reached := (counted_of_reachable reached).stored
  rejected s reached r thrown commit member := by
    rintro rfl
    have done := (counted_of_reachable reached).ended commit member
    cases phase : s.retries commit.retry <;> simp [phase, RetryPhase.error] at thrown <;>
      simp [phase, RetryPhase.ended] at done
  quiet s event t _ taken retry quiet := quiet_step taken retry quiet

theorem machine_raceLaw (settings : Outbox.Settings) :
    RaceLaw (machine settings) LeavesFailed := by
  intro s reached r
  have race := raceSound_of_reachable reached r
  refine ⟨fun mediaId generation lost => ?_, fun updated returned => ?_⟩
  · rw [lost] at race
    obtain ⟨rows, present, positive, past⟩ := race
    rw [(counted_of_reachable reached).stored mediaId rows present, if_pos ⟨positive, past⟩]
  · rw [returned] at race
    exact race

end Laws

/-- Every generation has one dispatch in every run. The races of the retries have one winner while
no claim finds a row failed. -/
theorem generations_of_retries (settings : Outbox.Settings) :
    DispatchLaw (machine settings) ∧ RaceLaw (machine settings) LeavesFailed :=
  ⟨machine_dispatchLaw settings, machine_raceLaw settings⟩

/-- One promoted image. -/
def samplePromoted : PromotedUpload where
  upload :=
    { fileIndex := 0
      originalFilename := "photo.png"
      extension := "png"
      declaredMimeType := "image/png"
      detectedMimeType := "image/png"
      detectedFormat := "png"
      mediaType := .image
      sizeBytes := 3
      checksumSha256 := "checksum"
      preliminaryMetadata := .null }
  mediaId := "media-0"
  dispatchId := "dispatch-0"
  originalRef := ⟨"originals", "posts/post-0/media-0/original.png"⟩

def emptyPlatform : State :=
  ⟨Outbox.emptyOutbox, fun _ => none, fun _ => none, fun _ => .idle, []⟩

theorem emptyPlatform_initial (settings : Outbox.Settings) :
    (machine settings).initial emptyPlatform :=
  ⟨⟨rfl, fun _ => rfl, fun _ _ => rfl, rfl, rfl, fun _ _ => rfl, fun _ _ => rfl⟩,
    fun _ => rfl, fun _ => rfl, fun _ => rfl, rfl⟩

/-- The image is uploaded and fails, and two retries read its failed row. -/
def toRace : List Event :=
  [.upload "post-0" 0 [samplePromoted] (fun _ => 0),
    .work "media-0" (.claim 1 "media-media-0-generation-1" 60 0 0),
    .work "media-0"
      (.operate (.fail "attempt-0" true "PROCESSING_FAILED" "Processing failed") 1 0 0),
    .begin 0 "media-0", .begin 1 "media-0", .read 0, .read 1]

/-- The race in numbers: the generations of the dispatches, the commits and the losers. -/
def State.race (s : State) : Option (List Nat) × Nat × List Bool :=
  ((s.stored "media-0").map fun rows => rows.dispatches.map (·.generation),
    s.retriesFrom "media-0" 1,
    [0, 1].map fun r => match s.retries r with
      | .lost "media-0" 1 => true
      | _ => false)

/-- One of the two retries commits the second generation, and the other one is rejected. -/
theorem image_retriedOnce : ∃ s,
    (machine Outbox.sampleSettings).Reachable LeavesFailed s ∧
      s.race = (some [1, 2], 1, [false, true]) ∧ DispatchLaw (machine Outbox.sampleSettings) ∧
      RaceLaw (machine Outbox.sampleSettings) LeavesFailed := by
  obtain ⟨s, reached, observed⟩ := (machine Outbox.sampleSettings).reachable_of_observed
    LeavesFailed State.race (some [1, 2], 1, [false, true])
    (toRace ++ [.update 0, .create 0 "dispatch-1", .commit 0 1 .ok, .update 1])
    (emptyPlatform_initial _) (by decide)
  exact ⟨s, reached, observed, generations_of_retries Outbox.sampleSettings⟩

/-- A redelivered job claims the failed row between the reads and the updates of the two retries.
Both are rejected, and no retry commits. -/
theorem image_not_retried : ¬ (DispatchLaw (machine Outbox.sampleSettings) ∧
    RaceLaw (machine Outbox.sampleSettings) Machine.anything) := by
  rintro ⟨_, race⟩
  obtain ⟨s, reached, observed⟩ := (machine Outbox.sampleSettings).reachable_of_observed
    Machine.anything State.race (some [1], 0, [true, true])
    (toRace ++ [.work "media-0" (.claim 1 "media-media-0-generation-1" 60 1 0), .update 0,
      .update 1])
    (emptyPlatform_initial _) (by decide)
  simp only [State.race, Prod.mk.injEq, List.map_cons, List.cons.injEq] at observed
  obtain ⟨_, none, loser, _⟩ := observed
  cases phase : s.retries 0 with
  | lost mediaId generation =>
      rw [phase] at loser
      split at loser
      · rename_i equal
        cases equal
        have one := (race s reached 0).1 "media-0" 1 phase
        rw [none] at one
        cases one
      · cases loser
  | _ => simp [phase] at loser

end PostsMedia.Platform
