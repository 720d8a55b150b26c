import PostsMedia.Processing.Completion
import PostsMedia.Processing.Finality

namespace PostsMedia.Processing

/-- The attempt has reached its end. -/
def AttemptFinished (attempt : ProcessingAttempt) : Prop :=
  attempt.status = .failed ∨ attempt.status = .completed

/-- The row that the upsert of a delivery finds. -/
def presentAttempt (rows : Rows) (payload : MediaJobPayloadV1) (attemptsMade : Nat) :
    Option ProcessingAttempt :=
  rows.attempts.find? fun attempt => attempt.generation = payload.generation &&
    attempt.bullAttemptNumber = attemptsMade + 1

/-- The execution works under an attempt while it holds the lease. -/
def WorksUnder (s : State) (x : ExecutionId) (run : Run) : Prop :=
  (s.executions x).run = some run ∧ s.rows.media.processingLeaseToken = some x

/-- The attempt of the lease holder is running, and no other live execution uses it. -/
structure SoundAttempts (s : State) : Prop where
  running : ∀ x run, WorksUnder s x run → ∃ attempt ∈ s.rows.attempts,
    attempt.id = run.attemptId ∧ attempt.generation = run.payload.generation ∧
      attempt.status = .running
  unshared : ∀ x run, WorksUnder s x run → ∀ y run', (s.executions y).run = some run' →
    run'.attemptId = run.attemptId → y = x

/-- The finished attempts stay as they are. -/
def HistoryKept (rows after : Rows) : Prop :=
  ∀ attempt ∈ rows.attempts, AttemptFinished attempt → attempt ∈ after.attempts

/-- In the admitted runs the history of the attempts only grows. -/
def AppendOnly (deployment : Deployment) (guard : State → Event → Prop) : Prop :=
  ∀ s, (machine deployment).Reachable guard s →
    SoundAttempts s ∧ ∀ t, (machine deployment).Path guard s t → HistoryKept s.rows t.rows

/-- The upsert finds no row, or one that its execution may use. The lease holder needs a running
row that no live execution uses. Everybody else must miss the row of the lease holder. -/
def Usable (s : State) (x : ExecutionId) (payload : MediaJobPayloadV1) (attemptsMade : Nat) :
    Prop :=
  ∀ present, presentAttempt s.rows payload attemptsMade = some present →
    if s.rows.media.processingLeaseToken = some x then
      present.status = .running ∧
        ∀ y run, (s.executions y).run = some run → run.attemptId ≠ present.id
    else ∀ y run, WorksUnder s y run → run.attemptId ≠ present.id

/-- The runs in which every upsert inserts its row or finds a usable one. -/
def UsableAttempts (s : State) : Event → Prop
  | .run x (.createAttempt .ok) => ∀ payload attemptsMade media,
      s.executions x = .starting payload attemptsMade media → Usable s x payload attemptsMade
  | _ => True

section Steps

variable {deployment : Deployment} {s t : State} {x : ExecutionId} {outcome : Outcome}

/-- A step that gives nobody a lease or a run keeps the attempts in use as they were. -/
theorem SoundAttempts.frame (sound : SoundAttempts s)
    (runs : ∀ x run, (t.executions x).run = some run → (s.executions x).run = some run)
    (token : ∀ x, t.rows.media.processingLeaseToken = some x →
      s.rows.media.processingLeaseToken = some x)
    (attempts : ∀ attempt ∈ s.rows.attempts, attempt ∈ t.rows.attempts) : SoundAttempts t where
  running x run works := by
    obtain ⟨attempt, member, matched⟩ := sound.running x run ⟨runs x run works.1, token x works.2⟩
    exact ⟨attempt, attempts attempt member, matched⟩
  unshared x run works y run' live :=
    sound.unshared x run ⟨runs x run works.1, token x works.2⟩ y run' (runs y run' live)

/-- Nobody works while the lease is free or its holder has no run. -/
theorem soundAttempts_of_idle
    (idle : ∀ x, t.rows.media.processingLeaseToken = some x → (t.executions x).run = none) :
    SoundAttempts t where
  running x run works := by
    have none := idle x works.2
    rw [works.1] at none
    cases none
  unshared x run works := by
    have none := idle x works.2
    rw [works.1] at none
    cases none

/-- A statement that keeps the rows and the run of its execution. -/
theorem SoundAttempts.goto (sound : SoundAttempts s) (rows : outcome.rows = s.rows)
    (runs : ∀ run, outcome.phase.run = some run → (s.executions x).run = some run) :
    SoundAttempts (s.commit x outcome) := by
  apply sound.frame
  · intro y run live
    by_cases same : y = x
    · subst same
      apply runs
      simpa [State.commit] using live
    · simpa [State.commit, same] using live
  · intro y held
    rw [← rows]
    exact held
  · intro attempt member
    show attempt ∈ outcome.rows.attempts
    rw [rows]
    exact member

/-- A statement that keeps the rows and ends its run, or has none yet. -/
theorem SoundAttempts.stop (sound : SoundAttempts s) (rows : outcome.rows = s.rows)
    (none : outcome.phase.run = none) : SoundAttempts (s.commit x outcome) := by
  apply sound.goto rows
  intro run live
  rw [none] at live
  cases live

theorem nextUpload_run (run : Run) (upload : Upload) : (nextUpload run upload).run = some run := by
  unfold nextUpload
  split <;> rfl

/-- After its claim an execution has no run yet, and everybody else has lost the lease. -/
theorem SoundAttempts.claim (sound : SoundAttempts s) (payload : MediaJobPayloadV1) (asOf : Time)
    {next : Phase} (run : next.run = none) :
    SoundAttempts (s.commit x (s.writing (claimRows deployment s x payload asOf) next)) := by
  by_cases matched : s.rows.media.claimable payload.generation asOf = true
  · apply soundAttempts_of_idle
    intro y held
    have holder : some x = some y := by
      simpa [State.commit, State.writing, claimRows, Processing.claim, matched, Media.claimed]
        using held
    cases holder
    simpa [State.commit, State.writing] using run
  · apply sound.goto
    · simp [State.writing, claimRows, Processing.claim, matched]
    · intro run' live
      rw [State.writing, run] at live
      cases live

theorem claimRows_attempts (payload : MediaJobPayloadV1) (asOf : Time) :
    (claimRows deployment s x payload asOf).attempts = s.rows.attempts := by
  simp only [claimRows, Processing.claim]
  split <;> rfl

/-- An operation that finishes a run gives the lease up or changes nothing. -/
theorem Operation.run_frees (operation : Operation) (finishes : operation.finishes = true)
    (rows : Rows) (generation : Nat) (token : LeaseToken) (now : Time) :
    (operation.run rows generation token now).1.media.processingLeaseToken = none ∨
      (operation.run rows generation token now).1 = rows := by
  cases operation with
  | renew => cases finishes
  | complete | fail | publish =>
      simp only [run]
      split
      · exact .inl rfl
      · exact .inr rfl

/-- The end of a run leaves nobody at work or changes nothing. -/
theorem SoundAttempts.finish (sound : SoundAttempts s) {run : Run} (operation : Operation)
    (finishes : operation.finishes = true) (rows : outcome.rows = run.rows operation s x)
    (runs : ∀ run, outcome.phase.run = some run → (s.executions x).run = some run) :
    SoundAttempts (s.commit x outcome) := by
  rcases operation.run_frees finishes s.rows run.payload.generation x s.now with free | same
  · apply soundAttempts_of_idle
    intro y held
    have none : outcome.rows.media.processingLeaseToken = none := by
      rw [rows]
      exact free
    have held' : outcome.rows.media.processingLeaseToken = some y := held
    rw [none] at held'
    cases held'
  · exact sound.goto (rows.trans same) runs

/-- The attempt that an operation finishes. -/
def Operation.attempt : Operation → Option String
  | .renew _ => none
  | .complete attemptId | .fail attemptId .. | .publish attemptId .. => some attemptId

/-- An operation changes no other attempt. -/
theorem Operation.mem_run (operation : Operation) {rows : Rows} {attempt : ProcessingAttempt}
    (member : attempt ∈ rows.attempts) (other : operation.attempt ≠ some attempt.id)
    (generation : Nat) (token : LeaseToken) (now : Time) :
    attempt ∈ (operation.run rows generation token now).1.attempts := by
  cases operation with
  | renew =>
      simp only [run]
      split <;> exact member
  | complete attemptId | fail attemptId | publish attemptId =>
      simp only [run]
      split
      · refine List.mem_map.mpr ⟨attempt, member, if_neg ?_⟩
        rintro ⟨rfl, _⟩
        exact other rfl
      · exact member

/-- The end of a run changes its own running attempt only. -/
theorem historyKept_finish (invariant : Invariant deployment s) (sound : SoundAttempts s)
    {run : Run} (live : (s.executions x).run = some run) (operation : Operation)
    (own : operation.attempt = some run.attemptId) :
    HistoryKept s.rows (run.rows operation s x) := by
  intro attempt present finished
  by_cases held : s.rows.media.processingLeaseToken = some x
  · obtain ⟨current, member, id, _, status⟩ := sound.running x run ⟨live, held⟩
    apply operation.mem_run present
    intro same
    have ids : attempt.id = current.id :=
      (Option.some.inj (same.symm.trans own)).trans id.symm
    have equal : attempt = current :=
      List.inj_on_of_nodup_map invariant.settled.distinct present member ids
    subst equal
    rcases finished with failed | completed
    · rw [status] at failed
      cases failed
    · rw [status] at completed
      cases completed
  · rw [Run.rows, operation.run_of_lost held]
    exact present

section Upsert

variable {payload : MediaJobPayloadV1} {attemptsMade : Nat} {media : Media}

theorem attemptRows_eq (deployment : Deployment) (s : State) (x : ExecutionId)
    (payload : MediaJobPayloadV1) (attemptsMade : Nat) :
    attemptRows deployment s x payload attemptsMade =
      match presentAttempt s.rows payload attemptsMade with
      | some present => (s.rows, present)
      | none => ({ s.rows with
          attempts := s.rows.attempts ++ [newAttempt deployment x payload attemptsMade] },
          newAttempt deployment x payload attemptsMade) := rfl

theorem presentAttempt_spec {present : ProcessingAttempt}
    (found : presentAttempt s.rows payload attemptsMade = some present) :
    present ∈ s.rows.attempts ∧ present.generation = payload.generation := by
  refine ⟨List.mem_of_find?_eq_some found, ?_⟩
  have matched := List.find?_some found
  simp only [Bool.and_eq_true, decide_eq_true_eq] at matched
  exact matched.1

/-- An execution starts to work under a running attempt that nobody at work uses. -/
theorem SoundAttempts.start (sound : SoundAttempts s) {after : Rows} {attempt : ProcessingAttempt}
    (token : after.media.processingLeaseToken = s.rows.media.processingLeaseToken)
    (attempts : ∀ old ∈ s.rows.attempts, old ∈ after.attempts)
    (mine : s.rows.media.processingLeaseToken = some x →
      (attempt ∈ after.attempts ∧ attempt.generation = payload.generation ∧
        attempt.status = .running) ∧
        ∀ y run, (s.executions y).run = some run → run.attemptId ≠ attempt.id)
    (others : ∀ y run, WorksUnder s y run → run.attemptId ≠ attempt.id) :
    SoundAttempts (s.commit x (s.writing after
      (.preparing ⟨payload, attemptsMade, media, attempt.id⟩))) := by
  have self (run : Run) (live : ((s.commit x (s.writing after
      (.preparing ⟨payload, attemptsMade, media, attempt.id⟩))).executions x).run = some run) :
      run = ⟨payload, attemptsMade, media, attempt.id⟩ := by
    simpa [State.commit, State.writing, Phase.run] using live.symm
  have apart (y : ExecutionId) (away : y ≠ x) (run : Run) (live : ((s.commit x (s.writing after
      (.preparing ⟨payload, attemptsMade, media, attempt.id⟩))).executions y).run = some run) :
      (s.executions y).run = some run := by
    simpa [State.commit, State.writing, away] using live
  constructor
  · intro y run works
    have held : s.rows.media.processingLeaseToken = some y := token.symm.trans works.2
    by_cases same : y = x
    · subst same
      rw [self run works.1]
      exact ⟨attempt, (mine held).1.1, rfl, (mine held).1.2⟩
    · obtain ⟨old, member, matched⟩ := sound.running y run ⟨apart y same run works.1, held⟩
      exact ⟨old, attempts old member, matched⟩
  · intro y run works z run' live shared
    have held : s.rows.media.processingLeaseToken = some y := token.symm.trans works.2
    by_cases same : y = x
    · subst same
      by_cases same' : z = y
      · exact same'
      · rw [self run works.1] at shared
        exact absurd shared ((mine held).2 z run' (apart z same' run' live))
    · by_cases same' : z = x
      · subst same'
        rw [self run' live] at shared
        exact absurd shared.symm (others y run ⟨apart y same run works.1, held⟩)
      · exact sound.unshared y run ⟨apart y same run works.1, held⟩ z run'
          (apart z same' run' live) shared

/-- A usable row keeps the attempts in use apart. -/
theorem SoundAttempts.createAttempt (invariant : Invariant deployment s) (sound : SoundAttempts s)
    (started : s.executions x = .starting payload attemptsMade media)
    (usable : Usable s x payload attemptsMade) :
    SoundAttempts (s.commit x (s.writing (attemptRows deployment s x payload attemptsMade).1
      (.preparing ⟨payload, attemptsMade, media,
        (attemptRows deployment s x payload attemptsMade).2.id⟩))) := by
  rw [attemptRows_eq]
  cases found : presentAttempt s.rows payload attemptsMade with
  | some present =>
      obtain ⟨member, generation⟩ := presentAttempt_spec found
      have fits := usable present found
      apply sound.start rfl fun _ old => old
      · intro held
        rw [if_pos held] at fits
        exact ⟨⟨member, generation, fits.1⟩, fits.2⟩
      · intro y run works
        by_cases held : s.rows.media.processingLeaseToken = some x
        · rw [if_pos held] at fits
          exact fits.2 y run works.1
        · rw [if_neg held] at fits
          exact fits y run works
  | none =>
      have fresh (y : ExecutionId) (run : Run) (live : (s.executions y).run = some run) :
          run.attemptId ≠ (newAttempt deployment x payload attemptsMade).id := by
        obtain ⟨attempt, member, id, _⟩ := (invariant.coherent y).attempt run live
        have unnamed := (invariant.coherent x).unnamed (by rw [started]; rfl) attempt member
        rw [← id]
        exact unnamed
      have token : ({ s.rows with
          attempts := s.rows.attempts ++ [newAttempt deployment x payload attemptsMade] } :
            Rows).media.processingLeaseToken = s.rows.media.processingLeaseToken := rfl
      apply sound.start token
      · intro old member
        exact List.mem_append_left _ member
      · intro _
        exact ⟨⟨List.mem_append_right _ (List.mem_singleton_self _), rfl, rfl⟩, fresh⟩
      · intro y run works
        exact fresh y run works.1

theorem mem_attemptRows {attempt : ProcessingAttempt} (member : attempt ∈ s.rows.attempts) :
    attempt ∈ (attemptRows deployment s x payload attemptsMade).1.attempts := by
  rw [attemptRows_eq]
  split
  · exact member
  · exact List.mem_append_left _ member

end Upsert

/-- A statement of an execution keeps the attempts in use apart when its upsert is usable. -/
theorem SoundAttempts.act (invariant : Invariant deployment s) (sound : SoundAttempts s)
    {action : Action} (admitted : UsableAttempts s (.run x action))
    (taken : act deployment s x action (s.executions x) = some outcome) :
    SoundAttempts (s.commit x outcome) := by
  obtain ⟨phase, started⟩ : ∃ phase, s.executions x = phase := ⟨_, rfl⟩
  have keep (run : Run) (live : phase.run = some run) (run' : Run) (same : some run = some run') :
      (s.executions x).run = some run' := by
    rw [started, live, same]
  rw [started] at taken
  cases statement_of_act taken with
  | claimRefused | leave | read | readLost | attemptRefused | workspaceLost | failRefused =>
      exact sound.stop rfl rfl
  | claim payload | claimUnacknowledged payload => exact sound.claim payload _ rfl
  | attempt payload attemptsMade media =>
      exact sound.createAttempt invariant started (admitted payload attemptsMade media started)
  | attemptUnacknowledged payload attemptsMade =>
      have media : (attemptRows deployment s x payload attemptsMade).1.media = s.rows.media :=
        (createAttempt_frame s.rows _).1
      apply sound.frame
      · intro y run live
        by_cases same : y = x
        · subst same
          simp [State.commit, State.writing, Phase.run] at live
        · simpa [State.commit, same] using live
      · intro y held
        rw [← media]
        exact held
      · intro attempt member
        exact mem_attemptRows member
  | workspace run | download run | downloadLost run | handleLost run | removedLost run
  | completeRefused run | put run | putUnacknowledged run | check run | copy run
  | copyUnacknowledged run | abort run | publishLost run | skip run | remove run | removed run =>
      exact sound.goto rfl (keep run rfl)
  | handle run result files =>
      apply sound.goto rfl
      intro run' live
      exact keep run rfl run' ((nextUpload_run run _).symm.trans live)
  | verify run upload artifact rest current =>
      apply sound.goto rfl
      intro run' live
      exact keep run rfl run' ((nextUpload_run run _).symm.trans live)
  | publish run upload variants | publishUnacknowledged run upload variants =>
      exact sound.finish (.publish run.attemptId variants upload.metadata) rfl rfl (keep run rfl)
  | complete run =>
      apply sound.finish (.complete run.attemptId) rfl rfl
      intro run' live
      cases live
  | completeUnacknowledged run =>
      exact sound.finish (.complete run.attemptId) rfl rfl (keep run rfl)
  | fail run message =>
      apply sound.finish (run.failure deployment message) rfl rfl
      intro run' live
      cases live

/-- A statement of an execution keeps the finished attempts. -/
theorem historyKept_act (invariant : Invariant deployment s) (sound : SoundAttempts s)
    {action : Action} (taken : act deployment s x action (s.executions x) = some outcome) :
    HistoryKept s.rows outcome.rows := by
  obtain ⟨phase, started⟩ : ∃ phase, s.executions x = phase := ⟨_, rfl⟩
  have live (run : Run) (current : phase.run = some run) : (s.executions x).run = some run := by
    rw [started, current]
  rw [started] at taken
  cases statement_of_act taken with
  | claim payload attemptsMade asOf | claimUnacknowledged payload attemptsMade asOf =>
      intro attempt member _
      show attempt ∈ (claimRows deployment s x payload asOf).attempts
      rw [claimRows_attempts]
      exact member
  | attempt payload attemptsMade | attemptUnacknowledged payload attemptsMade =>
      intro attempt member _
      exact mem_attemptRows member
  | publish run upload variants | publishUnacknowledged run upload variants =>
      exact historyKept_finish invariant sound (live run rfl)
        (.publish run.attemptId variants upload.metadata) rfl
  | complete run | completeUnacknowledged run =>
      exact historyKept_finish invariant sound (live run rfl) (.complete run.attemptId) rfl
  | fail run message =>
      exact historyKept_finish invariant sound (live run rfl) (run.failure deployment message) rfl
  | _ => exact fun _ member _ => member

/-- Every admitted event keeps the attempts in use apart. -/
theorem soundAttempts_step {event : Event} (invariant : Invariant deployment s)
    (sound : SoundAttempts s) (admitted : UsableAttempts s event)
    (taken : step deployment s event = some t) : SoundAttempts t := by
  cases event with
  | tick duration =>
      cases taken
      exact sound.frame (fun _ _ live => live) (fun _ held => held) fun _ member => member
  | deliver x payload attemptsMade =>
      simp only [step] at taken
      split at taken
      · split at taken <;> cases taken
        exact sound.stop rfl rfl
      · cases taken
  | run x action =>
      obtain ⟨outcome, acted, rfl⟩ := Option.map_eq_some_iff.mp taken
      exact sound.act invariant admitted acted
  | renew x generation asOf =>
      simp only [step] at taken
      split at taken <;> cases taken
      apply sound.frame
      · exact fun _ _ live => live
      · exact fun y held => Operation.run_token _ held
      · intro attempt member
        exact Operation.mem_run _ member (fun same => by cases same) _ _ _
  | crash x =>
      simp only [step] at taken
      split at taken <;> cases taken
      exact sound.stop rfl rfl
  | retry id dispatchId =>
      obtain ⟨rows, retried, rfl⟩ := Option.map_eq_some_iff.mp taken
      obtain ⟨_, _, rfl⟩ := retry_spec retried
      apply soundAttempts_of_idle
      intro y held
      cases held
  | outbox dispatches =>
      cases taken
      exact sound.frame (fun _ _ live => live) (fun _ held => held) fun _ member => member

theorem historyKept_step {event : Event} (invariant : Invariant deployment s)
    (sound : SoundAttempts s) (taken : step deployment s event = some t) :
    HistoryKept s.rows t.rows := by
  cases event with
  | tick | outbox =>
      cases taken
      exact fun _ member _ => member
  | deliver | crash =>
      simp only [step] at taken
      repeat' split at taken
      all_goals cases taken
      all_goals exact fun _ member _ => member
  | run x action =>
      obtain ⟨outcome, acted, rfl⟩ := Option.map_eq_some_iff.mp taken
      exact historyKept_act invariant sound acted
  | renew x generation asOf =>
      simp only [step] at taken
      split at taken <;> cases taken
      intro attempt member _
      exact Operation.mem_run _ member (fun same => by cases same) _ _ _
  | retry id dispatchId =>
      obtain ⟨rows, retried, rfl⟩ := Option.map_eq_some_iff.mp taken
      obtain ⟨_, _, rfl⟩ := retry_spec retried
      exact fun _ member _ => member

/-- An upsert that finds an unusable row breaks what the lease holder relies on at once. -/
theorem usable_of_sound {payload : MediaJobPayloadV1} {attemptsMade : Nat} {media : Media}
    (invariant : Invariant deployment s)
    (started : s.executions x = .starting payload attemptsMade media)
    (sound : SoundAttempts (s.commit x
      (s.writing (attemptRows deployment s x payload attemptsMade).1
        (.preparing ⟨payload, attemptsMade, media,
          (attemptRows deployment s x payload attemptsMade).2.id⟩)))) :
    Usable s x payload attemptsMade := by
  intro present found
  rw [attemptRows_eq, found] at sound
  have live : ((s.commit x (s.writing s.rows
      (.preparing ⟨payload, attemptsMade, media, present.id⟩))).executions x).run =
        some ⟨payload, attemptsMade, media, present.id⟩ := by
    simp [State.commit, State.writing, Phase.run]
  have away (y : ExecutionId) (run : Run) (before : (s.executions y).run = some run) : y ≠ x := by
    rintro rfl
    rw [started] at before
    cases before
  have kept (y : ExecutionId) (run : Run) (before : (s.executions y).run = some run) :
      ((s.commit x (s.writing s.rows
        (.preparing ⟨payload, attemptsMade, media, present.id⟩))).executions y).run = some run := by
    simpa [State.commit, away y run before] using before
  by_cases held : s.rows.media.processingLeaseToken = some x
  · rw [if_pos held]
    constructor
    · obtain ⟨attempt, member, id, _, status⟩ := sound.running x _ ⟨live, held⟩
      have same : attempt = present := List.inj_on_of_nodup_map invariant.settled.distinct member
        (presentAttempt_spec found).1 id
      rw [← same]
      exact status
    · intro y run before shared
      exact away y run before
        (sound.unshared x _ ⟨live, held⟩ y run (kept y run before) shared)
  · rw [if_neg held]
    intro y run works shared
    have same : x = y := sound.unshared y run ⟨kept y run works.1, works.2⟩ x _ live shared.symm
    exact away y run works.1 same.symm

/-- The admitted events are those that keep the attempts in use apart. -/
theorem soundAttempts_step_iff {event : Event} (invariant : Invariant deployment s)
    (sound : SoundAttempts s) (taken : step deployment s event = some t) :
    SoundAttempts t ↔ UsableAttempts s event := by
  constructor
  · intro after
    unfold UsableAttempts
    split
    · rename_i x
      intro payload attemptsMade media started
      obtain ⟨outcome, acted, rfl⟩ := Option.map_eq_some_iff.mp taken
      rw [started] at acted
      cases acted
      exact usable_of_sound invariant started after
    · trivial
  · intro admitted
    exact soundAttempts_step invariant sound admitted taken

theorem soundAttempts_of_reachable (reached : (machine deployment).Reachable UsableAttempts s) :
    SoundAttempts s := by
  refine reached.strengthen (Invariant deployment) (fun _ earlier => invariant_of_reachable earlier)
    ?_ fun _ _ _ invariant _ admitted taken sound =>
      soundAttempts_step invariant sound admitted taken
  intro s initial
  obtain ⟨_, _, _, idle, _⟩ := initial
  apply soundAttempts_of_idle
  intro x _
  rw [idle x]
  rfl

end Steps

/-- While every upsert is usable the history is append-only. The first other upsert breaks it. -/
theorem machine_appendOnly (deployment : Deployment) :
    AppendOnly deployment UsableAttempts ∧
      ∀ s event t, (machine deployment).Reachable UsableAttempts s →
        step deployment s event = some t → (SoundAttempts t ↔ UsableAttempts s event) := by
  constructor
  · intro s reached
    refine ⟨soundAttempts_of_reachable reached, fun t path => ?_⟩
    induction path with
    | refl => exact fun _ member _ => member
    | snoc event before _ taken ih =>
        have earlier := reached.extend before
        intro attempt member finished
        exact historyKept_step (invariant_of_reachable earlier)
          (soundAttempts_of_reachable earlier) taken attempt (ih attempt member finished) finished
  · intro s event t reached taken
    exact soundAttempts_step_iff (invariant_of_reachable reached)
      (soundAttempts_of_reachable reached) taken

/-- The runs in which no upsert finds a row. -/
def NewAttempts (s : State) : Event → Prop
  | .run x (.createAttempt _) =>
      match s.executions x with
      | .starting payload attemptsMade _ =>
          (presentAttempt s.rows payload attemptsMade).isNone = true
      | _ => True
  | _ => True

instance (s : State) (event : Event) : Decidable (NewAttempts s event) := by
  unfold NewAttempts
  rcases event
  case run x action =>
    rcases action
    case createAttempt =>
      dsimp only
      generalize s.executions x = phase
      rcases phase <;> infer_instance
    all_goals infer_instance
  all_goals infer_instance

theorem NewAttempts.usable (s : State) (event : Event) (new : NewAttempts s event) :
    UsableAttempts s event := by
  unfold UsableAttempts
  split
  · rename_i x
    intro payload attemptsMade media started present found
    simp only [NewAttempts, started, found] at new
    cases new
  · trivial

/-- The statuses of the attempts in their order. -/
def attemptStatuses (s : State) : List ProcessingAttemptStatus :=
  s.rows.attempts.map (·.status)

/-- One delivery of the recording with a download that fails. -/
def toRetry : List Event :=
  .deliver 0 recordingPayload 0 ::
    [.claim .ok, .read true, .createAttempt .ok, .createWorkspace true,
      .downloadAndVerify (some "PROCESSING_CHECKSUM_MISMATCH"), .fail .ok].map (Event.run 0)

/-- The next delivery completes the recording. -/
def toCompletion (x : ExecutionId) : List Event :=
  [.claim .ok, .read true, .createAttempt .ok, .createWorkspace true,
    .downloadAndVerify none].map (Event.run x) ++ toPublication x [1] ++ toEnd x

/-- The second attempt of the recording leaves the first one as it was. -/
theorem recording_appends : ∃ s t, (machine sampleDeployment).Reachable UsableAttempts s ∧
    (machine sampleDeployment).Path UsableAttempts s t ∧ attemptStatuses s = [.failed] ∧
    attemptStatuses t = [.failed, .completed] ∧ SoundAttempts s ∧ HistoryKept s.rows t.rows := by
  obtain ⟨s, t, reached, path, failed, completed⟩ := (machine sampleDeployment).path_of_observed
    NewAttempts attemptStatuses [.failed] attemptStatuses [.failed, .completed] toRetry
    (.deliver 1 recordingPayload 1 :: toCompletion 1) recordingStart_initial (by decide)
  have reached' := reached.mono NewAttempts.usable
  have path' := path.mono NewAttempts.usable
  have kept := (machine_appendOnly sampleDeployment).1 s reached'
  exact ⟨s, t, reached', path', failed, completed, kept.1, kept.2 t path'⟩

/-- The worker of the first attempt dies after `fail` has committed and before the acknowledgement.
The redelivery finds the failed attempt, works under it and completes it. -/
theorem recording_rewritten :
    (∃ s t, (fleetMachine sampleFleet).Reachable Machine.anything s ∧
      (fleetMachine sampleFleet).Path Machine.anything s t ∧
      attemptStatuses s.system = [.failed] ∧ attemptStatuses t.system = [.completed]) ∧
    ¬ AppendOnly sampleFleet.toDeployment Machine.anything := by
  have run := (fleetMachine sampleFleet).path_of_observed Machine.anything
    (fun s => attemptStatuses s.system) [.failed] (fun s => attemptStatuses s.system) [.completed]
    ([.claimDispatch 0 "d" 0, .add 0 "d" .ok "", .markPublished 0 "d" .ok ""] ++ toFailure 0)
    (.redeliver 1 "media-media-0-generation-1" :: (toCompletion 1).map .work)
    fleetStart_initial (by decide)
  refine ⟨run, fun appends => ?_⟩
  obtain ⟨s, t, reached, path, failed, completed⟩ := run
  obtain ⟨_, workers, rfl⟩ := (fleetSimulation sampleFleet).reachable reached
  obtain ⟨_, onward, rfl⟩ := (fleetSimulation sampleFleet).path rfl path
  have kept := (appends _ workers).2 _ onward
  obtain ⟨attempt, only, status⟩ := List.map_eq_singleton_iff.mp failed
  have member : attempt ∈ t.system.rows.attempts := kept attempt (by simp [only]) (.inl status)
  have listed : attempt.status ∈ attemptStatuses t.system := List.mem_map_of_mem member
  rw [completed, status] at listed
  exact absurd listed (by decide)

end PostsMedia.Processing
