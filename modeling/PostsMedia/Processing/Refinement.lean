import PostsMedia.Processing.Delivery
import PostsMedia.Processing.Fencing
import PostsMedia.Processing.Statements

namespace PostsMedia.Processing

variable {deployment : Deployment} {s t : State} {a : RowState} {x : ExecutionId}

/-- The database has not seen the lease token of the execution yet. -/
def Phase.unissued : Phase → Bool
  | .idle | .claiming .. => true
  | _ => false

/-- The statements on the rows that led to a state of the workers. -/
structure Follows (s : State) (a : RowState) : Prop where
  now : a.now = s.now
  rows : a.rows = s.rows
  unissued : ∀ x, (s.executions x).unissued = true →
    a.terms x = none ∧ s.rows.media.processingLeaseToken ≠ some x
  read : ∀ x payload attemptsMade asOf,
    s.executions x = .claiming payload attemptsMade asOf → asOf ≤ s.now

/-- The rows after a statement under the token of one execution. -/
structure Reaches (a : RowState) (x : ExecutionId) (written : Rows) (b : RowState) : Prop where
  path : rowMachine.Path Machine.anything a b
  now : b.now = a.now
  rows : b.rows = written
  terms : ∀ y, y ≠ x → b.terms y = a.terms y
  token : ∀ y, y ≠ x → written.media.processingLeaseToken = some y →
    a.rows.media.processingLeaseToken = some y

/-- No statement changes nothing. -/
theorem reaches_refl (a : RowState) (x : ExecutionId) : Reaches a x a.rows a :=
  ⟨.refl a, rfl, rfl, fun _ _ => rfl, fun _ _ stored => stored⟩

/-- No operation gives the lease to anybody. -/
theorem Operation.run_token (operation : Operation) {rows : Rows} {generation : Nat}
    {token y : LeaseToken} {now : Time}
    (stored : (operation.run rows generation token now).1.media.processingLeaseToken = some y) :
    rows.media.processingLeaseToken = some y := by
  cases operation with
  | renew =>
      simp only [run] at stored
      split at stored <;> exact stored
  | complete | fail | publish =>
      simp only [run] at stored
      split at stored
      · cases stored
      · exact stored

/-- An operation of a worker is a statement on the rows. -/
theorem reaches_run (operation : Operation) (generation : Nat) {asOf : Time} (past : asOf ≤ a.now) :
    ∃ b, Reaches a x (operation.run a.rows generation x asOf).1 b := by
  cases ran : operation.run a.rows generation x asOf with
  | mk rows held =>
      have token : ∀ y, y ≠ x → rows.media.processingLeaseToken = some y →
          a.rows.media.processingLeaseToken = some y := by
        intro y _ stored
        apply operation.run_token
        rw [ran]
        exact stored
      cases held with
      | true =>
          refine ⟨if operation.finishes then a.giveUp x rows else a.record x rows, ?_, ?_, ?_, ?_,
            token⟩
          · refine .single (.operate operation generation x asOf) trivial ?_
            simp only [rowMachine, rowStep, if_pos past, ran]
          · split <;> rfl
          · split <;> rfl
          · intro y away
            split
            · rfl
            · exact Function.update_of_ne away _ _
      | false =>
          have same := operation.run_refused (congrArg Prod.snd ran)
          rw [ran] at same
          rw [show rows = a.rows from same]
          exact ⟨a, reaches_refl a x⟩

/-- A claim of a worker is a statement on the rows. -/
theorem reaches_claim (generation : Nat) (jobId : String) (leaseSeconds : Nat) {asOf : Time}
    (past : asOf ≤ a.now) (unissued : a.terms x = none) :
    ∃ b, Reaches a x (claim a.rows generation jobId leaseSeconds x asOf).1 b := by
  by_cases matched : a.rows.media.claimable generation asOf = true
  · simp only [claim, if_pos matched]
    refine ⟨a.record x { a.rows with media := a.rows.media.claimed jobId leaseSeconds x asOf }, ?_,
      rfl, rfl, fun y away => Function.update_of_ne away _ _, ?_⟩
    · refine .single (.claim generation jobId leaseSeconds x asOf) trivial ?_
      simp only [rowMachine, rowStep, if_pos (And.intro past unissued), claim, if_pos matched]
    · intro y away stored
      exact absurd (Option.some.inj stored).symm away
  · simp only [claim, if_neg matched]
    exact ⟨a, reaches_refl a x⟩

/-- An inserted attempt is a statement on the rows. -/
theorem reaches_createAttempt (created : ProcessingAttempt) :
    ∃ b, Reaches a x (createAttempt a.rows created).1 b := by
  refine ⟨{ a with rows := (createAttempt a.rows created).1 }, ?_, rfl, rfl, fun _ _ => rfl, ?_⟩
  · exact .single (.createAttempt created) trivial rfl
  · intro y _ stored
    unfold createAttempt at stored
    split at stored <;> exact stored

/-- The statements of an execution under its own lease token are statements on the rows. -/
theorem Follows.operation (follows : Follows s a) (run : Run) (operation : Operation) :
    ∃ b, Reaches a x (run.rows operation s x) b := by
  have ran := reaches_run (a := a) (x := x) operation run.payload.generation
    (Nat.le_of_eq follows.now.symm)
  rw [follows.rows] at ran
  exact ran

/-- The claim of an execution under the time that it read is a statement on the rows. -/
theorem Follows.claim (follows : Follows s a) {payload : MediaJobPayloadV1}
    {attemptsMade : Nat} {asOf : Time}
    (started : s.executions x = .claiming payload attemptsMade asOf) :
    ∃ b, Reaches a x (claimRows deployment s x payload asOf) b := by
  have past : asOf ≤ a.now := by
    rw [follows.now]
    exact follows.read x _ _ _ started
  have claimed := reaches_claim (a := a) payload.generation
    (mediaJobId payload.mediaId payload.generation) deployment.processingLeaseSeconds past
    (follows.unissued x (by rw [started]; rfl)).1
  rw [follows.rows] at claimed
  exact claimed

/-- The upsert of an execution is a statement on the rows. -/
theorem Follows.createAttempt (follows : Follows s a) (payload : MediaJobPayloadV1)
    (attemptsMade : Nat) :
    ∃ b, Reaches a x (attemptRows deployment s x payload attemptsMade).1 b := by
  have inserted := reaches_createAttempt (a := a) (x := x)
    (newAttempt deployment x payload attemptsMade)
  rw [follows.rows] at inserted
  exact inserted

/-- Every statement of an execution is a statement on the rows or leaves them alone. -/
theorem reaches_of_act (follows : Follows s a) {action : Action} {outcome : Outcome}
    (taken : act deployment s x action (s.executions x) = some outcome) :
    ∃ b, Reaches a x outcome.rows b := by
  have quiet : ∃ b, Reaches a x s.rows b := by
    rw [← follows.rows]
    exact ⟨a, reaches_refl a x⟩
  obtain ⟨phase, started⟩ : ∃ phase, s.executions x = phase := ⟨_, rfl⟩
  rw [started] at taken
  cases statement_of_act taken with
  | claim | claimUnacknowledged => exact follows.claim started
  | attempt | attemptUnacknowledged => exact follows.createAttempt _ _
  | publish run | publishUnacknowledged run | complete run | completeUnacknowledged run
  | fail run => exact follows.operation run _
  | _ => exact quiet

/-- No statement leads back to an unsent token. -/
theorem unissued_of_act {action : Action} {phase : Phase} {outcome : Outcome}
    (taken : act deployment s x action phase = some outcome) : outcome.phase.unissued = false := by
  have next (run : Run) (upload : Upload) : (nextUpload run upload).unissued = false := by
    unfold nextUpload
    split <;> rfl
  cases statement_of_act taken with
  | handle | verify => exact next _ _
  | _ => rfl

/-- A worker that moves under its own statement still follows the rows. -/
theorem Follows.commit (follows : Follows s a) {b : RowState} {outcome : Outcome}
    (reaches : Reaches a x outcome.rows b) (issued : outcome.phase.unissued = false) :
    Follows (s.commit x outcome) b where
  now := reaches.now.trans follows.now
  rows := reaches.rows
  unissued y early := by
    have away : y ≠ x := by
      intro mine
      subst mine
      simp [State.commit, issued] at early
    simp only [State.commit, Function.update_of_ne away] at early
    obtain ⟨none', free⟩ := follows.unissued y early
    refine ⟨(reaches.terms y away).trans none', fun stored => free ?_⟩
    rw [← follows.rows]
    exact reaches.token y away stored
  read y payload attemptsMade asOf started := by
    have away : y ≠ x := by
      intro mine
      subst mine
      simp only [State.commit, Function.update_self] at started
      simp [started, Phase.unissued] at issued
    simp only [State.commit, Function.update_of_ne away] at started
    exact follows.read y payload attemptsMade asOf started

/-- A delivery reads the time and sends nothing. -/
theorem Follows.deliver (follows : Follows s a) (idle : s.executions x = .idle)
    (payload : MediaJobPayloadV1) (attemptsMade : Nat) :
    Follows (s.commit x (s.goto (.claiming payload attemptsMade s.now))) a where
  now := follows.now
  rows := follows.rows
  unissued y early := by
    by_cases mine : y = x
    · exact mine ▸ follows.unissued x (by rw [idle]; rfl)
    · simp only [State.commit, Function.update_of_ne mine] at early
      exact follows.unissued y early
  read y payload' attemptsMade' asOf started := by
    by_cases mine : y = x
    · subst mine
      simp only [State.commit, State.goto, Function.update_self] at started
      cases started
      exact Nat.le_refl _
    · simp only [State.commit, Function.update_of_ne mine] at started
      exact follows.read y payload' attemptsMade' asOf started

/-- A renewal is a statement of the holder, or it changes nothing. -/
theorem Follows.renew (follows : Follows s a) (leaseSeconds generation : Nat) {asOf : Time}
    (past : asOf ≤ s.now) : ∃ b, rowMachine.Path Machine.anything a b ∧
      Follows { s with
        rows := ((Operation.renew leaseSeconds).run s.rows generation x asOf).1 } b := by
  by_cases stored : s.rows.media.processingLeaseToken = some x
  · obtain ⟨b, reaches⟩ := reaches_run (a := a) (x := x) (.renew leaseSeconds) generation
      (Nat.le_trans past (Nat.le_of_eq follows.now.symm))
    rw [follows.rows] at reaches
    refine ⟨b, reaches.path, reaches.now.trans follows.now, reaches.rows, ?_, follows.read⟩
    intro y early
    obtain ⟨none', free⟩ := follows.unissued y early
    have away : y ≠ x := fun mine => free (mine ▸ stored)
    exact ⟨(reaches.terms y away).trans none', fun later => free (Operation.run_token _ later)⟩
  · rw [Operation.run_of_lost _ stored]
    exact ⟨a, .refl a, follows⟩

/-- A manual retry takes the lease from everybody. -/
theorem Follows.retry (follows : Follows s a) {id dispatchId : String} {rows : Rows}
    (retried : Processing.retry s.rows id dispatchId = some rows) :
    ∃ b, rowMachine.Path Machine.anything a b ∧ Follows { s with rows := rows } b := by
  refine ⟨{ a with rows := rows }, .single (.retry id dispatchId) trivial ?_, follows.now, rfl, ?_,
    follows.read⟩
  · simp only [rowMachine, rowStep, follows.rows, retried, Option.map_some]
  · intro x early
    refine ⟨(follows.unissued x early).1, ?_⟩
    obtain ⟨_, _, rfl⟩ := retry_spec retried
    simp [Media.retried]

/-- The orchestrated workers refine the statements on the rows. -/
def orchestratorSimulation (deployment : Deployment) :
    Machine.Simulation (machine deployment) rowMachine Machine.anything where
  related := Follows
  start s initial := by
    obtain ⟨fresh, _, _, idle, _⟩ := initial
    refine ⟨⟨s.now, s.rows, fun _ => none, fun _ => false⟩,
      ⟨fresh, fun _ => rfl, fun _ => rfl⟩, rfl, rfl, ?_, ?_⟩
    · exact fun _ _ => ⟨rfl, by simp [fresh.token]⟩
    · intro x payload attemptsMade asOf started
      rw [idle x] at started
      cases started
  follow s a event t follows _ taken := by
    cases event with
    | tick duration =>
        cases taken
        refine ⟨{ a with now := a.now + duration }, .single (.tick duration) trivial rfl, ?_⟩
        refine ⟨congrArg (· + duration) follows.now, follows.rows, follows.unissued, ?_⟩
        intro x payload attemptsMade asOf started
        exact Nat.le_trans (follows.read x payload attemptsMade asOf started) (Nat.le_add_right _ _)
    | deliver x payload attemptsMade =>
        simp only [machine, step] at taken
        split at taken
        · rename_i idle
          split at taken <;> cases taken
          exact ⟨a, .refl a, follows.deliver idle payload attemptsMade⟩
        · cases taken
    | run x action =>
        obtain ⟨outcome, acted, rfl⟩ := Option.map_eq_some_iff.mp taken
        obtain ⟨b, reaches⟩ := reaches_of_act follows acted
        exact ⟨b, reaches.path, follows.commit reaches (unissued_of_act acted)⟩
    | renew x generation asOf =>
        simp only [machine, step] at taken
        split at taken <;> cases taken
        exact follows.renew deployment.processingLeaseSeconds generation ‹_›
    | crash x =>
        simp only [machine, step] at taken
        split at taken <;> cases taken
        have same : Reaches a x s.rows a := follows.rows ▸ reaches_refl a x
        exact ⟨a, .refl a, follows.commit same rfl⟩
    | retry id dispatchId =>
        obtain ⟨rows, retried, rfl⟩ := Option.map_eq_some_iff.mp taken
        exact follows.retry retried
    | outbox dispatches =>
        cases taken
        refine ⟨{ a with rows := { a.rows with dispatches := dispatches } },
          .single (.outbox dispatches) trivial rfl, follows.now, ?_, follows.unissued, follows.read⟩
        rw [follows.rows]

section Fleet

variable {fleet : Fleet} {s t : FleetState}

/-- The events of the workers that an event of the fleet may take. -/
def FleetEvent.drives : FleetEvent → Event → Prop
  | .work event, worked => worked = event
  | .deliver x _, .deliver y _ _ | .redeliver x _, .deliver y _ _ => x = y
  | .retry id, .retry id' _ => id = id'
  | _, .outbox _ => True
  | _, _ => False

/-- Everything that an event can do, with the step that it drives. -/
inductive FleetEffect (fleet : Fleet) (s : FleetState) : FleetEvent → FleetState → Prop
  | work {event : FleetEvent} {worked : Event} {system : State} (jobs : String → Job)
      (drives : event.drives worked) (plain : ∀ dispatches, worked ≠ .outbox dispatches)
      (stepped : step fleet.toDeployment s.system worked = some system) :
      FleetEffect fleet s event { s with system := system, jobs := jobs }
  | queue {event : FleetEvent} (jobs : String → Job) :
      FleetEffect fleet s event { s with jobs := jobs }
  | claim {token : LeaseToken} {dispatchId : String} {asOf : Time}
      {claimed : List ProcessingDispatch × ProcessingDispatch}
      (claims : claimDispatch s.dispatches dispatchId fleet.outboxLeaseSeconds token asOf =
        some claimed) :
      FleetEffect fleet s (.claimDispatch token dispatchId asOf)
        ((s.storing claimed.1).publishing token dispatchId (.claimed claimed.2))
  | publish {event : FleetEvent} (jobs : String → Job) (token : LeaseToken) (dispatchId : String)
      (publisher : Publisher) :
      FleetEffect fleet s event ({ s with jobs := jobs }.publishing token dispatchId publisher)
  | mark {event : FleetEvent} {change : ProcessingDispatch → ProcessingDispatch}
      (token : LeaseToken) (id dispatchId : String) (publisher : Publisher)
      (stores : ∀ dispatches, event.drives (.outbox dispatches))
      (released : ∀ dispatch, (change dispatch).status ≠ .publishing) :
      FleetEffect fleet s event
        ((s.storing (updateOwned s.dispatches id token change)).publishing token dispatchId
          publisher)
  | delete (before : Time) :
      FleetEffect fleet s (.deletePublished before)
        (s.storing (deletePublishedBefore s.dispatches before))

/-- A worker starts a job by a delivery. -/
theorem effect_of_startJob {event : FleetEvent} {jobId : String} {payload : MediaJobPayloadV1}
    {attemptsMade : Nat} (drives : event.drives (.deliver x payload attemptsMade))
    (taken : startJob fleet s x jobId payload attemptsMade = some t) :
    FleetEffect fleet s event t := by
  obtain ⟨system, stepped, rfl⟩ := Option.map_eq_some_iff.mp taken
  exact .work _ drives (fun _ same => by cases same) stepped

/-- A mark takes effect or not, and the publication goes on. -/
theorem effect_of_mark {event : FleetEvent} {change : ProcessingDispatch → ProcessingDispatch}
    (token : LeaseToken) (id dispatchId : String) (publisher : Publisher) (fate : Fate)
    (stores : ∀ dispatches, event.drives (.outbox dispatches))
    (released : ∀ dispatch, (change dispatch).status ≠ .publishing) :
    FleetEffect fleet s event
      ((if fate.tookEffect then s.storing (updateOwned s.dispatches id token change)
        else s).publishing token dispatchId publisher) := by
  split
  · exact .mark token id dispatchId publisher stores released
  · exact .publish s.jobs token dispatchId publisher

/-- Every event of the fleet does one of these. -/
theorem effect_of_fleetStep {event : FleetEvent} (taken : fleetStep fleet s event = some t) :
    FleetEffect fleet s event t := by
  cases event with
  | work event =>
      simp only [fleetStep, stepWork] at taken
      split at taken
      · cases taken
      · cases taken
      · cases taken
      · rename_i plain
        obtain ⟨system, stepped, rfl⟩ := Option.map_eq_some_iff.mp taken
        exact .work s.jobs rfl plain stepped
  | deliver x jobId =>
      simp only [fleetStep, stepDeliver] at taken
      split at taken
      · exact effect_of_startJob rfl taken
      · cases taken
  | redeliver x jobId =>
      simp only [fleetStep, stepRedeliver] at taken
      split at taken
      · split at taken
        · cases taken
        · exact effect_of_startJob rfl taken
      · cases taken
  | acknowledge x jobId =>
      simp only [fleetStep, stepAcknowledge] at taken
      repeat' split at taken
      all_goals cases taken
      all_goals exact .queue _
  | expire jobId =>
      obtain ⟨job, _, rfl⟩ := Option.map_eq_some_iff.mp taken
      exact .queue _
  | retry id =>
      obtain ⟨system, stepped, rfl⟩ := Option.map_eq_some_iff.mp taken
      have drives : FleetEvent.drives (.retry id)
          (.retry id (fleet.dispatchName (s.media.processingGeneration + 1))) := rfl
      exact .work s.jobs drives (fun _ same => by cases same) stepped
  | claimDispatch token dispatchId asOf =>
      simp only [fleetStep, stepClaimDispatch] at taken
      split at taken
      · split at taken
        · obtain ⟨claimed, claims, rfl⟩ := Option.map_eq_some_iff.mp taken
          exact .claim claims
        · cases taken
      · cases taken
  | add token dispatchId fate error =>
      simp only [fleetStep, stepAdd] at taken
      split at taken
      · split at taken
        · cases taken
          exact .publish s.jobs token dispatchId _
        · cases fate <;> cases taken
          · exact .publish _ token dispatchId _
          · exact .publish s.jobs token dispatchId _
          · exact .publish _ token dispatchId _
      · cases taken
  | markPublished token dispatchId fate error =>
      simp only [fleetStep, stepMarkPublished] at taken
      split at taken <;> cases taken
      exact effect_of_mark token _ dispatchId _ fate (fun _ => trivial) fun _ held => by cases held
  | markRetryWait token dispatchId fate delay =>
      simp only [fleetStep, stepMarkRetryWait] at taken
      split at taken <;> cases taken
      exact effect_of_mark token _ dispatchId _ fate (fun _ => trivial) fun _ held => by cases held
  | markDead token dispatchId fate =>
      simp only [fleetStep, stepMarkDead] at taken
      split at taken <;> cases taken
      exact effect_of_mark token _ dispatchId _ fate (fun _ => trivial) fun _ held => by cases held
  | deletePublished before =>
      cases taken
      exact .delete before

/-- Every event of the fleet leaves the workers alone or drives one of their steps. -/
theorem system_of_fleetStep {event : FleetEvent} (taken : fleetStep fleet s event = some t) :
    t.system = s.system ∨
      ∃ worked, event.drives worked ∧ step fleet.toDeployment s.system worked = some t.system := by
  cases effect_of_fleetStep taken with
  | work _ drives _ stepped => exact .inr ⟨_, drives, stepped⟩
  | queue | publish => exact .inl rfl
  | claim => exact .inr ⟨.outbox _, trivial, rfl⟩
  | mark _ _ _ _ stores => exact .inr ⟨.outbox _, stores _, rfl⟩
  | delete => exact .inr ⟨.outbox _, trivial, rfl⟩

end Fleet

/-- The workers with the outbox and the queue refine the workers. -/
def fleetSimulation (fleet : Fleet) :
    Machine.Simulation (fleetMachine fleet) (machine fleet.toDeployment) Machine.anything where
  related s a := a = s.system
  start s initial := ⟨s.system, initial.1, rfl⟩
  follow := by
    rintro s a event t rfl _ taken
    rcases system_of_fleetStep taken with same | ⟨event, _, stepped⟩
    · exact ⟨s.system, .refl _, same.symm⟩
    · exact ⟨t.system, .single event trivial stepped, rfl⟩

/-- The leases of the whole system exclude each other. -/
theorem fleet_exclusive {fleet : Fleet} {s : FleetState}
    (reached : (fleetMachine fleet).Reachable Machine.anything s) :
    ∃ a : RowState, rowMachine.Reachable Machine.anything a ∧ a.rows = s.system.rows ∧
      Lease.Exclusive a.abstractLease := by
  obtain ⟨a, statements, system, rfl, follows⟩ :=
    ((fleetSimulation fleet).comp (orchestratorSimulation fleet.toDeployment)).reachable reached
  obtain ⟨b, abstract, _, rfl⟩ := rowSimulation.reachable statements
  exact ⟨a, statements, follows.rows, Lease.exclusive_of_reachable abstract⟩

end PostsMedia.Processing
