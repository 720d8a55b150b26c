import PostsMedia.Processing.Stranding

namespace PostsMedia.Processing

variable {fleet : Fleet} {s t : FleetState} {x : ExecutionId}

section Turns

variable {deployment : Deployment} {system : State} {outcome : Outcome}

/-- Only an execution in flight takes statements. -/
theorem delivery_of_act {action : Action} {phase : Phase}
    (taken : act deployment system x action phase = some outcome) :
    ∃ payload attemptsMade, phase.delivery = some (payload, attemptsMade) := by
  cases phase with
  | idle | returned | threw | crashed => cases action <;> cases taken
  | _ => exact ⟨_, _, rfl⟩

/-- A crash is a turn without a result. -/
theorem turn_crash (x : ExecutionId) (payload : MediaJobPayloadV1) (attemptsMade : Nat) :
    Turn deployment system x payload attemptsMade (system.goto .crashed) where
  same := .refl _
  generation := rfl
  dispatches := rfl
  foreign _ := rfl
  delivery _ present := by cases present
  owns claimed := by cases claimed
  ended past := by rcases past with same | ⟨same, _⟩ <;> cases same
  started idle := by cases idle

end Turns

section Turn

variable {payload : MediaJobPayloadV1} {attemptsMade generation : Nat} {outcome : Outcome}

/-- A generation stays over, except that its own execution may open it again. -/
theorem Steady.over_of_turn (steady : Steady fleet s)
    (delivery : (s.system.executions x).delivery = some (payload, attemptsMade))
    (turn : Turn fleet.toDeployment s.system x payload attemptsMade outcome)
    (past : Over s.media generation) : Over outcome.rows.media generation ∨
      s.jobs (mediaJobId s.media.id generation) = .active payload attemptsMade x := by
  by_cases current : payload.generation = s.media.processingGeneration
  · by_cases same : generation = payload.generation
    · exact .inr (same ▸ steady.job_of_delivery delivery)
    · refine .inl fun present => absurd ?_ same
      rw [present, turn.generation]
      exact current.symm
  · refine .inl ?_
    have media : outcome.rows.media = s.media := turn.foreign current
    rwa [media]

/-- A safe generation stays safe, since the execution that may open it again has a live job. -/
theorem Steady.safe_of_turn (steady : Steady fleet s)
    (delivery : (s.system.executions x).delivery = some (payload, attemptsMade))
    (turn : Turn fleet.toDeployment s.system x payload attemptsMade outcome)
    (before : Safe s.media s.jobs generation) :
    Safe outcome.rows.media s.jobs generation := by
  have id : s.media.id = outcome.rows.media.id := turn.same.id
  unfold Safe at before ⊢
  rw [← id]
  rcases before with live | past
  · exact .inl live
  · rcases steady.over_of_turn delivery turn past with past' | present
    · exact .inr past'
    · exact .inl (by rw [present]; rfl)

/-- The job of the execution that takes the turn learns its end, and the others stay sound. -/
theorem Steady.job_of_turn (steady : Steady fleet s)
    (delivery : (s.system.executions x).delivery = some (payload, attemptsMade))
    (turn : Turn fleet.toDeployment s.system x payload attemptsMade outcome) (generation : Nat) :
    JobSound fleet outcome.rows.media (s.system.commit x outcome).executions generation
      (s.jobs (mediaJobId s.media.id generation)) := by
  have generations : outcome.rows.media.processingGeneration = s.media.processingGeneration :=
    turn.generation
  have sound := steady.job_sound generation
  by_cases mine : s.jobs (mediaJobId s.media.id generation) = .active payload attemptsMade x
  · rw [mine] at sound ⊢
    obtain ⟨owner, ofGeneration, old, _⟩ := sound
    have here : (s.system.commit x outcome).executions x = outcome.phase :=
      Function.update_self ..
    refine ⟨owner.trans turn.same.id, ofGeneration, generations.symm ▸ old, ?_⟩
    rw [here]
    refine ⟨turn.started, turn.delivery, fun past present => turn.ended past ?_⟩
    rw [ofGeneration, present, turn.generation]
  · refine sound.later turn.same.id (Nat.le_of_eq generations.symm) ?_ ?_
    · intro _ past
      exact (steady.over_of_turn delivery turn past).resolve_right mine
    · intro payload' attemptsMade' y job
      apply Function.update_of_ne
      intro same
      subst same
      rw [job] at sound
      obtain ⟨_, _, _, _, deliveries, _⟩ := sound
      obtain ⟨rfl, rfl⟩ := Prod.mk.inj (deliveries _ delivery)
      exact mine job

/-- The other executions of the generation have no delivery, and those of other generations do not
see the turn. -/
theorem Steady.owns_of_turn (steady : Steady fleet s)
    (delivery : (s.system.executions x).delivery = some (payload, attemptsMade))
    (turn : Turn fleet.toDeployment s.system x payload attemptsMade outcome) {y : ExecutionId}
    (away : y ≠ x) {payload' : MediaJobPayloadV1}
    {attemptsMade' : Nat} (active : s.job payload'.generation = .active payload' attemptsMade' y)
    (owns : Owns s.system.rows y payload') : Owns outcome.rows y payload' := by
  intro present
  by_cases current : payload.generation = s.media.processingGeneration
  · have same : payload'.generation = payload.generation := by
      rw [present, turn.generation]
      exact current.symm
    have own : s.job payload.generation = .active payload attemptsMade x :=
      steady.job_of_delivery delivery
    rw [same, own] at active
    cases active
    exact absurd rfl away
  · have media : outcome.rows.media = s.system.rows.media := turn.foreign current
    rw [media] at present ⊢
    exact owns present

/-- A turn of one execution keeps the state steady. -/
theorem Steady.turn (steady : Steady fleet s)
    (delivery : (s.system.executions x).delivery = some (payload, attemptsMade))
    (turn : Turn fleet.toDeployment s.system x payload attemptsMade outcome)
    (invariant : Invariant fleet.toDeployment (s.system.commit x outcome)) :
    Steady fleet { s with system := s.system.commit x outcome } := by
  refine steady.progress invariant turn.same (Nat.le_of_eq turn.generation.symm)
    (steady.job_of_turn delivery turn) ?_ ?_ ?_ ?_
  · intro y payload' attemptsMade' delivery'
    by_cases mine : y = x
    · subst mine
      simp only [State.commit, Function.update_self] at delivery' ⊢
      obtain ⟨rfl, rfl⟩ := Prod.mk.inj (turn.delivery _ delivery')
      exact ⟨steady.job_of_delivery delivery, turn.owns⟩
    · simp only [State.commit, Function.update_of_ne mine] at delivery' ⊢
      obtain ⟨active, owns⟩ := steady.executions y payload' attemptsMade' delivery'
      exact ⟨active, fun claimed => steady.owns_of_turn delivery turn mine active (owns claimed)⟩
  · intro dispatch member
    have kept : outcome.rows.dispatches = s.dispatches := turn.dispatches
    exact .inl (kept ▸ member)
  · exact fun _ _ before => steady.safe_of_turn delivery turn before
  · exact steady.current_of_same turn.generation turn.dispatches fun _ before =>
      steady.safe_of_turn delivery turn before

end Turn

/-- A step that leaves the executions and the relevant columns alone keeps the state steady. -/
theorem Steady.relabel (steady : Steady fleet s) {system : State}
    (invariant : Invariant fleet.toDeployment system)
    (same : SameMedia s.media system.rows.media)
    (generation : system.rows.media.processingGeneration = s.media.processingGeneration)
    (status : system.rows.media.processingStatus = s.media.processingStatus)
    (token : system.rows.media.processingLeaseToken = s.media.processingLeaseToken)
    (dispatches : system.rows.dispatches = s.dispatches)
    (executions : system.executions = s.system.executions) :
    Steady fleet { s with system := system } := by
  have past (other : Nat) (before : Over s.media other) : Over system.rows.media other := by
    unfold Over at before ⊢
    rwa [generation, status]
  have safe (other : Nat) (before : Safe s.media s.jobs other) :
      Safe system.rows.media s.jobs other := by
    unfold Safe at before ⊢
    rw [← same.id]
    exact before.imp_right (past other)
  have later := Nat.le_of_eq generation.symm
  refine steady.progress invariant same later ?_ ?_ ?_ ?_ ?_
  · intro other
    exact (steady.job_sound other).later same.id later (fun _ => past other) fun _ _ x _ =>
      congrFun executions x
  · intro y payload attemptsMade delivery
    rw [executions] at delivery ⊢
    obtain ⟨active, owns⟩ := steady.executions y payload attemptsMade delivery
    refine ⟨active, fun claimed current => ?_⟩
    rw [status, token]
    exact owns claimed (current.trans generation)
  · exact fun _ member => .inl (dispatches ▸ member)
  · exact fun other _ => safe other
  · exact steady.current_of_same generation dispatches safe

section Start

variable {payload : MediaJobPayloadV1} {attemptsMade : Nat} {jobId : String} {asOf : Time}

/-- A started job is active for its new execution, and the others stay sound. -/
theorem Steady.jobs_of_start (steady : Steady fleet s) (idle : s.system.executions x = .idle)
    (owner : payload.mediaId = s.media.id)
    (ids : jobId = mediaJobId s.media.id payload.generation)
    (old : payload.generation ≤ s.media.processingGeneration) {other : String}
    (present : Function.update s.jobs jobId (.active payload attemptsMade x) other ≠ .absent) :
    ∃ generation, other = mediaJobId s.media.id generation ∧
      JobSound fleet s.media
        (Function.update s.system.executions x (.claiming payload attemptsMade asOf)) generation
        (Function.update s.jobs jobId (.active payload attemptsMade x) other) := by
  by_cases same : other = jobId
  · subst same
    refine ⟨payload.generation, ids, ?_⟩
    simp only [Function.update_self]
    refine ⟨owner, rfl, old, ?_⟩
    simp only [Function.update_self]
    refine ⟨nofun, fun delivery present => (Option.some.inj present).symm, ?_⟩
    rintro (ends | ⟨ends, _⟩) <;> cases ends
  · rw [Function.update_of_ne same] at present ⊢
    obtain ⟨generation, rfl, sound⟩ := steady.jobs other present
    refine ⟨generation, rfl, ?_⟩
    apply sound.later rfl (Nat.le_refl _) (fun _ past => past)
    intro payload' attemptsMade' y job
    apply Function.update_of_ne
    intro mine
    rw [job] at sound
    obtain ⟨_, _, _, started, _⟩ := sound
    exact started (mine ▸ idle)

/-- The new execution has its job, and every other execution keeps its own. -/
theorem Steady.executions_of_start (steady : Steady fleet s)
    (ids : jobId = mediaJobId s.media.id payload.generation)
    (free : ∀ y payload' attemptsMade', s.jobs jobId = .active payload' attemptsMade' y →
      (s.system.executions y).delivery = none) {y : ExecutionId} {payload' : MediaJobPayloadV1}
    {attemptsMade' : Nat}
    (delivery : (Function.update s.system.executions x (.claiming payload attemptsMade asOf)
      y).delivery = some (payload', attemptsMade')) :
    Function.update s.jobs jobId (.active payload attemptsMade x)
        (mediaJobId s.media.id payload'.generation) = .active payload' attemptsMade' y ∧
      ((Function.update s.system.executions x (.claiming payload attemptsMade asOf) y).claimed =
        true → Owns s.system.rows y payload') := by
  by_cases mine : y = x
  · subst mine
    rw [Function.update_self] at delivery ⊢
    obtain ⟨rfl, rfl⟩ := Prod.mk.inj (Option.some.inj delivery)
    exact ⟨by rw [← ids, Function.update_self], nofun⟩
  · rw [Function.update_of_ne mine] at delivery ⊢
    obtain ⟨active, owns⟩ := steady.executions y payload' attemptsMade' delivery
    refine ⟨?_, owns⟩
    have job : s.jobs (mediaJobId s.media.id payload'.generation) =
        .active payload' attemptsMade' y := active
    rw [Function.update_of_ne, job]
    intro same
    rw [same] at job
    simp [free y payload' attemptsMade' job] at delivery

/-- A delivery of a job that nobody works on keeps the state steady. -/
theorem steady_startJob (steady : Steady fleet s)
    (ids : jobId = mediaJobId s.media.id payload.generation)
    (old : payload.generation ≤ s.media.processingGeneration)
    (free : ∀ y payload' attemptsMade', s.jobs jobId = .active payload' attemptsMade' y →
      (s.system.executions y).delivery = none)
    (taken : startJob fleet s x jobId payload attemptsMade = some t) : Steady fleet t := by
  obtain ⟨system, stepped, rfl⟩ := Option.map_eq_some_iff.mp taken
  have invariant := invariant_step steady.invariant stepped
  simp only [step] at stepped
  split at stepped
  · rename_i idle
    split at stepped
    · rename_i owner
      cases stepped
      have safe (generation : Nat) (before : Safe s.media s.jobs generation) : Safe s.media
          (Function.update s.jobs jobId (.active payload attemptsMade x)) generation :=
        safe_queueing (fun _ _ _ => .inl rfl) before
      constructor
      · exact invariant
      · exact steady.profile
      · exact fun _ present => steady.jobs_of_start idle owner ids old present
      · exact fun _ _ _ delivery => steady.executions_of_start ids free delivery
      · exact steady.dispatches
      · intro token dispatchId
        exact (steady.publishers token dispatchId).later rfl (Nat.le_refl _)
          fun generation _ before => safe generation before
      · exact steady.current.imp_right (safe _)
    · cases stepped
  · cases stepped

end Start

/-- A delivery takes a waiting job. -/
theorem steady_deliver (steady : Steady fleet s) {jobId : String}
    (taken : stepDeliver fleet s x jobId = some t) : Steady fleet t := by
  unfold stepDeliver at taken
  split at taken
  · rename_i payload attemptsMade present
    obtain ⟨generation, ids, sound⟩ := steady.jobs jobId (by simp [present])
    rw [present] at sound
    obtain ⟨_, rfl, old⟩ := sound
    refine steady_startJob steady ids old ?_ taken
    intro y payload' attemptsMade' active
    rw [present] at active
    cases active
  · cases taken

/-- A redelivery takes an active job whose execution is not in flight. -/
theorem steady_redeliver (steady : Steady fleet s) {jobId : String}
    (taken : stepRedeliver fleet s x jobId = some t) : Steady fleet t := by
  unfold stepRedeliver at taken
  split at taken
  · rename_i payload attemptsMade y present
    split at taken
    · cases taken
    · rename_i ended
      obtain ⟨generation, ids, sound⟩ := steady.jobs jobId (by simp [present])
      rw [present] at sound
      obtain ⟨_, rfl, old, _⟩ := sound
      refine steady_startJob steady ids old ?_ taken
      intro y' payload' attemptsMade' active
      rw [present] at active
      cases active
      rw [Phase.inFlight_iff] at ended
      simpa using ended
  · cases taken

/-- A manual retry that spells the media id as the row does opens a new generation with its own
dispatch. -/
theorem steady_retry (steady : Steady fleet s)
    (taken : fleetStep fleet s (.retry s.media.id) = some t) : Steady fleet t := by
  obtain ⟨system, stepped, rfl⟩ := Option.map_eq_some_iff.mp taken
  have invariant := invariant_step steady.invariant stepped
  obtain ⟨rows, retried, rfl⟩ := Option.map_eq_some_iff.mp stepped
  obtain ⟨own, _, rfl⟩ := retry_spec retried
  have later : s.media.processingGeneration ≤ s.media.retried.processingGeneration :=
    Nat.le_succ _
  have past (generation : Nat) (old : generation ≤ s.media.processingGeneration) :
      Over s.media.retried generation := by
    intro present
    have above : s.media.retried.processingGeneration = s.media.processingGeneration + 1 := rfl
    omega
  refine steady.progress invariant ⟨rfl, rfl, rfl, rfl⟩ later ?_ ?_ ?_ ?_ ?_
  · intro generation
    exact (steady.job_sound generation).later rfl later (fun old _ => past generation old)
      fun _ _ _ _ => rfl
  · intro y payload attemptsMade delivery
    obtain ⟨active, _⟩ := steady.executions y payload attemptsMade delivery
    refine ⟨active, fun _ present => ?_⟩
    have sound := steady.job_sound payload.generation
    have job : s.jobs (mediaJobId s.media.id payload.generation) =
        .active payload attemptsMade y := active
    rw [job] at sound
    have old : payload.generation ≤ s.media.processingGeneration := sound.2.2.1
    have above : payload.generation = s.media.processingGeneration + 1 := present
    omega
  · intro dispatch member
    rcases List.mem_append.mp member with old | new
    · exact .inl old
    · rw [List.mem_singleton.mp new]
      let payload : MediaJobPayloadV1 :=
        { dispatchId := fleet.dispatchName (s.media.processingGeneration + 1)
          mediaId := s.media.id
          postId := s.media.postId
          mediaType := s.media.mediaType
          generation := s.media.processingGeneration + 1
          processingProfile := s.media.processingProfile
          reason := .manualRetry }
      exact .inr ⟨payload, ⟨rfl, own, rfl, rfl, rfl, rfl, rfl, rfl⟩, rfl, steady.profile, rfl, rfl,
        Nat.le_refl _⟩
  · exact fun generation old _ => .inr (past generation old)
  · exact .inl ⟨_, List.mem_append_right _ (List.mem_singleton_self _), rfl, rfl⟩

/-- A step of the workers keeps the state steady when it is recoverable. -/
theorem steady_work (steady : Steady fleet s) {event : Event}
    (recoverable : Recoverable fleet.toDeployment s.system event)
    (taken : stepWork fleet s event = some t) : Steady fleet t := by
  cases event with
  | tick duration =>
      cases taken
      have ticked : step fleet.toDeployment s.system (.tick duration) = some _ := rfl
      exact steady.relabel (invariant_step steady.invariant ticked) (.refl _) rfl rfl rfl rfl rfl
  | run x action =>
      obtain ⟨system, stepped, rfl⟩ := Option.map_eq_some_iff.mp taken
      have invariant := invariant_step steady.invariant stepped
      obtain ⟨outcome, acted, rfl⟩ := Option.map_eq_some_iff.mp stepped
      obtain ⟨payload, attemptsMade, delivery⟩ := delivery_of_act acted
      have owns := (steady.executions x payload attemptsMade delivery).2
      exact steady.turn delivery (turn_of_act steady.invariant delivery owns recoverable acted)
        invariant
  | renew x generation asOf =>
      obtain ⟨system, stepped, rfl⟩ := Option.map_eq_some_iff.mp taken
      have invariant := invariant_step steady.invariant stepped
      simp only [step] at stepped
      split at stepped
      · cases stepped
        have progress := progress_run "" (.renew fleet.processingLeaseSeconds)
          steady.invariant.settled.leased generation x asOf
        refine steady.relabel invariant progress.same (Operation.run_frame _).1 ?_ ?_
          (Operation.run_frame _).2 rfl
        · simp only [Operation.run]
          split <;> rfl
        · simp only [Operation.run]
          split <;> rfl
      · cases stepped
  | crash x =>
      obtain ⟨system, stepped, rfl⟩ := Option.map_eq_some_iff.mp taken
      have invariant := invariant_step steady.invariant stepped
      simp only [step] at stepped
      split at stepped
      · rename_i inFlight
        cases stepped
        rw [Phase.inFlight_iff] at inFlight
        obtain ⟨⟨payload, attemptsMade⟩, delivery⟩ := Option.isSome_iff_exists.mp inFlight
        exact steady.turn delivery (turn_crash x payload attemptsMade) invariant
      · cases stepped
  | deliver | retry | outbox => cases taken

/-- The runs whose worker steps are all recoverable and whose retries spell the media id as its
column does. -/
def KeepsJobs (fleet : Fleet) (s : FleetState) : FleetEvent → Prop
  | .work event => Recoverable fleet.toDeployment s.system event
  | .retry id => id = s.media.id
  | _ => True

/-- Every admitted event keeps the state steady. -/
theorem steady_step {event : FleetEvent} (steady : Steady fleet s)
    (admitted : KeepsJobs fleet s event) (taken : fleetStep fleet s event = some t) :
    Steady fleet t := by
  cases event with
  | work event => exact steady_work steady admitted taken
  | deliver => exact steady_deliver steady taken
  | redeliver => exact steady_redeliver steady taken
  | acknowledge => exact steady_acknowledge steady taken
  | expire => exact steady_expire steady taken
  | retry id =>
      have own : id = s.media.id := admitted
      exact steady_retry steady (own ▸ taken)
  | claimDispatch => exact steady_claimDispatch steady taken
  | add => exact steady_add steady taken
  | markPublished => exact steady_markPublished steady taken
  | markRetryWait => exact steady_markRetryWait steady taken
  | markDead token dispatchId fate =>
      simp only [fleetStep, stepMarkDead] at taken
      split at taken
      · rename_i dispatch message started
        have sound := steady.publishers token dispatchId
        rw [started] at sound
        exact sound.elim
      · cases taken
  | deletePublished before =>
      cases taken
      exact steady_deletePublished steady before

/-- A committed upload is steady. Its dispatch is pending. -/
theorem steady_initial (initial : (fleetMachine fleet).initial s) : Steady fleet s := by
  obtain ⟨system, ⟨input, name, media, dispatches⟩, absent, idle⟩ := initial
  have resting (x : ExecutionId) : s.system.executions x = .idle := system.2.2.2.1 x
  constructor
  · exact invariant_initial system
  · rw [media]
    rfl
  · intro jobId present
    exact absurd (absent jobId) present
  · intro x payload attemptsMade delivery
    rw [resting x] at delivery
    cases delivery
  · intro dispatch member
    rw [dispatches] at member
    rw [List.mem_singleton.mp member, media]
    exact ⟨_, .refl _, rfl, rfl, rfl, name, Nat.le_refl _⟩
  · intro token dispatchId
    rw [idle token dispatchId]
    trivial
  · rw [dispatches, media]
    exact .inl ⟨_, List.mem_singleton_self _, rfl, rfl⟩

/-- Every state of an admitted run is steady. -/
theorem steady_of_reachable (reached : (fleetMachine fleet).Reachable (KeepsJobs fleet) s) :
    Steady fleet s :=
  reached.invariant (fun _ => steady_initial) fun _ _ _ admitted taken steady =>
    steady_step steady admitted taken

/-- An unfinished generation has an open dispatch or a live job. -/
def NoneStranded (fleet : Fleet) (guard : FleetState → FleetEvent → Prop) : Prop :=
  ∀ s, (fleetMachine fleet).Reachable guard s → s.media.processingStatus ≠ .completed →
    s.media.processingStatus ≠ .failed →
    Pending s.media s.dispatches ∨ (s.job s.media.processingGeneration).live = true

/-- No media is stranded while no execution gives up the job of an unfinished generation. -/
theorem fleet_noneStranded (fleet : Fleet) : NoneStranded fleet (KeepsJobs fleet) := by
  intro s reached completed failed
  rcases (steady_of_reachable reached).current with pending | live | past
  · exact .inl pending
  · exact .inr live
  · have finished := past rfl
    cases status : s.media.processingStatus <;> simp_all [ProcessingStatus.finished]

instance {deployment : Deployment} (s : State) (event : Event) :
    Decidable (Recoverable deployment s event) := by
  unfold Recoverable
  rcases event
  case run x action =>
    dsimp only
    generalize s.executions x = phase
    rcases action with ⟨_ | _⟩ | _ <;> rcases phase <;> infer_instance
  all_goals infer_instance

instance (s : FleetState) (event : FleetEvent) : Decidable (KeepsJobs fleet s event) := by
  rcases event <;> unfold KeepsJobs <;> infer_instance

/-- The worker host of the recording with its outbox. -/
def sampleFleet : Fleet where
  toDeployment := sampleDeployment
  outboxLeaseSeconds := 30
  dispatchName generation := String.ofList (List.replicate generation 'd')
  dispatchName_injective generation generation' same := by
    have lengths := congrArg String.length same
    simpa using lengths

def recordingInput : CreateMediaWithDispatchInput :=
  { sampleInput with mediaType := .audio, dispatchId := "d" }

/-- The recording is committed and nothing is published yet. -/
def fleetStart : FleetState where
  system :=
    { recordingStart with
      rows :=
        { media := (createWithDispatch recordingInput).1
          variants := []
          attempts := []
          dispatches := [(createWithDispatch recordingInput).2] } }
  jobs _ := .absent
  publishers _ _ := .idle

theorem fleetStart_initial : (fleetMachine sampleFleet).initial fleetStart :=
  ⟨⟨createWithDispatch_fresh _, rfl, rfl, fun _ => rfl, rfl⟩, ⟨recordingInput, rfl, rfl, rfl⟩,
    fun _ => rfl, fun _ _ => rfl⟩

/-- The dispatch is published, and the first worker crashes after its claim. -/
def toCrash : List FleetEvent :=
  [.claimDispatch 0 "d" 0, .add 0 "d" .ok "", .markPublished 0 "d" .ok "",
    .deliver 0 "media-media-0-generation-1", .work (.run 0 (.claim .ok)), .work (.crash 0)]

/-- A redelivery after the lease of the crashed worker claims the recording again. -/
theorem recording_recovers : ∃ s,
    (fleetMachine sampleFleet).Reachable (KeepsJobs sampleFleet) s ∧
      s.media.processingLeaseToken = some 1 ∧
      (Pending s.media s.dispatches ∨ (s.job s.media.processingGeneration).live = true) := by
  obtain ⟨s, reached, observed⟩ := (fleetMachine sampleFleet).reachable_of_observed
    (KeepsJobs sampleFleet) (fun s => (s.media.processingStatus, s.media.processingLeaseToken))
    (.processing, some 1)
    (toCrash ++ [.work (.tick 60000), .redeliver 1 "media-media-0-generation-1",
      .work (.run 1 (.claim .ok))]) fleetStart_initial (by decide)
  simp only [Prod.mk.injEq] at observed
  exact ⟨s, reached, observed.2,
    fleet_noneStranded sampleFleet s reached (by simp [observed.1]) (by simp [observed.1])⟩

/-- A redelivery before the end of that lease finds the claim refused, returns and completes the
job. Nothing will process the recording again. -/
theorem recording_stranded : ¬ NoneStranded sampleFleet Machine.anything := by
  intro none'
  obtain ⟨s, reached, observed⟩ := (fleetMachine sampleFleet).reachable_of_observed
    Machine.anything (fun s => (s.media.processingStatus, s.dispatches.any (·.isOpen),
      (s.job s.media.processingGeneration).live)) (.processing, false, false)
    (toCrash ++ [.redeliver 1 "media-media-0-generation-1", .work (.run 1 (.claim .ok)),
      .acknowledge 1 "media-media-0-generation-1"]) fleetStart_initial (by decide)
  simp only [Prod.mk.injEq] at observed
  obtain ⟨status, closed, dead⟩ := observed
  rcases none' s reached (by simp [status]) (by simp [status]) with pending | live
  · obtain ⟨dispatch, member, _, isOpen⟩ := pending
    have some' := List.any_eq_true.mpr ⟨dispatch, member, isOpen⟩
    simp [closed] at some'
  · simp [dead] at live

end PostsMedia.Processing
