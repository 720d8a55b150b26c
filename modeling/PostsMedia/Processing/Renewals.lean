import Mathlib.Data.Prod.Basic
import PostsMedia.Library.Renewal
import PostsMedia.Processing.Release

namespace PostsMedia.Renewals

open Processing (Deployment ExecutionId Phase Action Outcome Operation)

open Renewal (Limits Holder Kept)

/-- The executions of one media with their interval timers. A pending renewal has read the clock
and has not reached the database. -/
structure Workers where
  system : Processing.State
  begun : ExecutionId → Time
  due : ExecutionId → Option Time
  pending : ExecutionId → List (ℕ × Time)

/-- The events of the executions beside their timers. A renewal that fails is an unhandled
rejection, so it ends its process. -/
inductive Event
  | system (event : Processing.Event)
  | fire (x : ExecutionId)
  | renew (x : ExecutionId) (generation : ℕ) (asOf : Time)
  | drop (x : ExecutionId)

/-- The timer runs from the creation of the workspace to the `finally` block. -/
def renews : Phase → Bool
  | .downloading _ | .handling _ | .uploading .. | .committing .. | .removing .. | .completing _
  | .failing .. => true
  | _ => false

/-- The execution has read the clock for its claim and has not set its timer. -/
def starts : Phase → Bool
  | .claiming .. | .reading .. | .starting .. | .preparing _ => true
  | _ => false

/-- `setInterval` runs its callback for the first time after one interval. -/
def nextDue (every now : Time) (due : Option Time) (phase : Phase) : Option Time :=
  if renews phase then some (due.getD (now + every)) else none

/-- The execution has claimed and not yet come to the end of its publication. -/
def works : Phase → Bool
  | .reading .. | .starting .. | .preparing _ | .downloading _ | .handling _ | .uploading ..
  | .committing .. => true
  | _ => false

/-- The clock that `claim` reads is that of the delivery. -/
def begunAfter (s : Workers) : Processing.Event → ExecutionId → Time
  | .deliver x .. => Function.update s.begun x s.system.now
  | _ => s.begun

/-- The state after an event of the executions. -/
def Workers.follow (s : Workers) (every : Time) (event : Processing.Event) (t : Processing.State) :
    Workers where
  system := t
  begun := begunAfter s event
  due := fun x => nextDue every s.system.now (s.due x) (t.executions x)
  pending := s.pending

/-- The interval that the timer of an execution keeps. -/
def every (processingLeaseRenewSeconds : ℕ) : Time :=
  timerDelay (processingLeaseRenewSeconds * 1000)

section Steps

variable (deployment : Deployment) (processingLeaseRenewSeconds : ℕ)

/-- Renewals come from the timers alone. -/
def stepSystem (s : Workers) (event : Processing.Event) : Option Workers :=
  match event with
  | .renew .. => none
  | _ => (Processing.step deployment s.system event).map
      (s.follow (every processingLeaseRenewSeconds) event)

/-- The callback of the interval calls `renew`, which reads the clock at once. -/
def stepFire (s : Workers) (x : ExecutionId) : Option Workers :=
  match s.due x, (s.system.executions x).delivery with
  | some due, some (payload, _) =>
      if due ≤ s.system.now then
        some { s with
          due := Function.update s.due x
            (some (s.system.now + every processingLeaseRenewSeconds))
          pending := Function.update s.pending x
            ((payload.generation, s.system.now) :: s.pending x) }
      else none
  | _, _ => none

/-- The statement of a pending renewal. -/
def stepRenew (s : Workers) (x : ExecutionId) (generation : ℕ) (asOf : Time) : Option Workers :=
  if (generation, asOf) ∈ s.pending x then
    (Processing.step deployment s.system (.renew x generation asOf)).map fun t =>
      { s with
        system := t
        pending := Function.update s.pending x ((s.pending x).erase (generation, asOf)) }
  else none

/-- The renewals of a dead process may be lost. -/
def stepDrop (s : Workers) (x : ExecutionId) : Option Workers :=
  if (s.system.executions x).inFlight then none
  else some { s with pending := Function.update s.pending x [] }

def step (s : Workers) : Event → Option Workers
  | .system event => stepSystem deployment processingLeaseRenewSeconds s event
  | .fire x => stepFire processingLeaseRenewSeconds s x
  | .renew x generation asOf => stepRenew deployment s x generation asOf
  | .drop x => stepDrop s x

def machine : Machine Workers Event where
  initial s := (Processing.machine deployment).initial s.system ∧ (∀ x, s.due x = none) ∧
    ∀ x, s.pending x = []
  step := step deployment processingLeaseRenewSeconds

end Steps

/-- How late the parts of a worker may be. -/
structure Timing where
  startup : Time
  patience : Time
  delay : Time

def Timing.limits (timing : Timing) (deployment : Deployment) (processingLeaseRenewSeconds : ℕ) :
    Limits where
  lease := deployment.processingLeaseSeconds * 1000
  every := Renewals.every processingLeaseRenewSeconds
  startup := timing.startup
  patience := timing.patience
  delay := timing.delay

/-- The lease as its holder knows it. -/
def Workers.holder (s : Workers) (x : ExecutionId) (expiry : Time) : Holder where
  begun := s.begun x
  due := s.due x
  pending := (s.pending x).map Prod.snd
  expiry := expiry

/-- No time passes beyond a deadline of an execution. -/
def Prompt (timing : Timing) (s : Workers) : Event → Prop
  | .system (.tick duration) => ∀ x,
      (starts (s.system.executions x) = true →
        s.system.now + duration ≤ s.begun x + timing.startup) ∧
      (∀ due, s.due x = some due → s.system.now + duration ≤ due + timing.patience) ∧
      ∀ renewal ∈ s.pending x, s.system.now + duration ≤ renewal.2 + timing.delay
  | _ => True

section Turns

variable {deployment : Deployment} {s : Processing.State} {x : ExecutionId}

theorem never {P : Prop} (impossible : false = true) : P := by cases impossible

/-- A statement without a write to the lease goes on with its execution or ends it. -/
structure Follows (phase next : Phase) : Prop where
  delivery : next.claimed = true → next.delivery = phase.delivery
  claimed : next.claimed = true → phase.claimed = true
  started : starts next = true → starts phase = true
  renewed : next.claimed = true → renews phase = true → renews next = true
  worked : works next = true → works phase = true
  published : next.published = true → phase.published = true

/-- What a statement does to the lease. -/
inductive LeaseTurn (deployment : Deployment) (s : Processing.State) (x : ExecutionId)
    (phase : Phase) (outcome : Outcome) : Prop
  | keep (media : outcome.rows.media = s.rows.media)
      (publications : outcome.publications = s.publications)
      (follows : Follows phase outcome.phase)
  | grant (payload : MediaJobPayloadV1) (attemptsMade : ℕ) (asOf : Time)
      (started : phase = .claiming payload attemptsMade asOf)
      (matched : s.rows.media.claimable payload.generation asOf = true)
      (media : outcome.rows.media = s.rows.media.claimed
        (mediaJobId payload.mediaId payload.generation)
        deployment.processingLeaseSeconds x asOf)
      (publications : outcome.publications = s.publications)
      (next : outcome.phase = .reading payload attemptsMade ∨ outcome.phase = .threw)
  | finish (run : Processing.Run) (operation : Operation)
      (rows : outcome.rows = run.rows operation s x) (finishes : operation.finishes = true)
      (started : starts outcome.phase = false)
      (worked : works outcome.phase = false)
      (publications : ∀ publication ∈ s.publications, publication ∈ outcome.publications)
      (published : outcome.phase.claimed = true → phase.published = true ∨
        ∃ publication ∈ outcome.publications, publication.execution = x)

theorem follows_ended {phase next : Phase} (ended : next = .returned ∨ next = .threw) :
    Follows phase next := by
  rcases ended with rfl | rfl <;> exact ⟨never, never, never, never, never, never⟩

theorem follows_nextUpload {phase : Phase} {run : Processing.Run} (upload : Processing.Upload)
    (delivery : phase.delivery = some (run.payload, run.attemptsMade))
    (claimed : phase.claimed = true) (worked : works phase = true) :
    Follows phase (Processing.nextUpload run upload) := by
  unfold Processing.nextUpload
  split <;>
    exact ⟨fun _ => delivery.symm, fun _ => claimed, never, fun _ _ => rfl, fun _ => worked, never⟩

theorem leaseTurn_of_act {action : Action} {phase : Phase} {outcome : Outcome}
    (taken : Processing.act deployment s x action phase = some outcome) :
    LeaseTurn deployment s x phase outcome := by
  have statement := Processing.statement_of_act taken
  cases statement with
  | claimRefused => exact .keep rfl rfl (follows_ended (.inr rfl))
  | claimUnacknowledged payload attemptsMade asOf =>
      by_cases matched : s.rows.media.claimable payload.generation asOf = true
      · refine .grant payload attemptsMade asOf rfl matched ?_ rfl (.inr rfl)
        simp only [Processing.State.writing, Processing.claimRows, Processing.claim, if_pos matched]
      · rw [Processing.claimRows_of_taken matched]
        exact .keep rfl rfl (follows_ended (.inr rfl))
  | claim payload attemptsMade asOf matched =>
      refine .grant payload attemptsMade asOf rfl matched ?_ rfl (.inl rfl)
      simp only [Processing.State.writing, Processing.claimRows, Processing.claim, if_pos matched]
  | leave => exact .keep rfl rfl (follows_ended (.inl rfl))
  | readLost | attemptRefused | workspaceLost | failRefused =>
      exact .keep rfl rfl (follows_ended (.inr rfl))
  | attemptUnacknowledged payload attemptsMade media =>
      exact .keep (Processing.createAttempt_frame _ _).1 rfl (follows_ended (.inr rfl))
  | attempt payload attemptsMade media =>
      exact .keep (Processing.createAttempt_frame _ _).1 rfl
        ⟨fun _ => rfl, fun _ => rfl, fun _ => rfl, fun _ => never, fun _ => rfl, never⟩
  | read payload attemptsMade =>
      exact .keep rfl rfl
        ⟨fun _ => rfl, fun _ => rfl, fun _ => rfl, fun _ => never, fun _ => rfl, never⟩
  | handle run result files => exact .keep rfl rfl (follows_nextUpload _ rfl rfl rfl)
  | verify run upload => exact .keep rfl rfl (follows_nextUpload _ rfl rfl rfl)
  | publish run upload variants error matched built =>
      exact .finish run _ rfl rfl rfl rfl (fun _ member => List.mem_append_left _ member)
        fun _ => .inr ⟨_, List.mem_append_right _ List.mem_cons_self, rfl⟩
  | publishUnacknowledged run upload variants error matched built =>
      exact .finish run _ rfl rfl rfl rfl (fun _ member => List.mem_append_left _ member)
        fun _ => .inr ⟨_, List.mem_append_right _ List.mem_cons_self, rfl⟩
  | complete run error => exact .finish run _ rfl rfl rfl rfl (fun _ member => member) never
  | completeUnacknowledged run error =>
      exact .finish run _ rfl rfl rfl rfl (fun _ member => member) fun _ => .inl rfl
  | fail run message => exact .finish run _ rfl rfl rfl rfl (fun _ member => member) never
  | skip run ref rest failure | remove run ref rest failure =>
      cases failure <;>
        exact .keep rfl rfl
          ⟨fun _ => rfl, fun _ => rfl, never, fun _ _ => rfl, never, fun past => past⟩
  | removed =>
      exact .keep rfl rfl ⟨fun _ => rfl, fun _ => rfl, never, fun _ _ => rfl, never, fun _ => rfl⟩
  | workspace | download | put | check | copy =>
      exact .keep rfl rfl ⟨fun _ => rfl, fun _ => rfl, never, fun _ _ => rfl, fun _ => rfl, never⟩
  | downloadLost | handleLost | putUnacknowledged | copyUnacknowledged | abort | publishLost
  | removedLost | completeRefused =>
      exact .keep rfl rfl ⟨fun _ => rfl, fun _ => rfl, never, fun _ _ => rfl, never, never⟩

/-- A statement never leads back before the claim. -/
theorem phase_of_act {action : Action} {phase : Phase} {outcome : Outcome}
    (taken : Processing.act deployment s x action phase = some outcome) :
    outcome.phase.claimed = true ∨ outcome.phase = .returned ∨ outcome.phase = .threw := by
  have statement := Processing.statement_of_act taken
  cases statement with
  | claimRefused | claimUnacknowledged | readLost | attemptUnacknowledged | attemptRefused
  | workspaceLost | fail | failRefused => exact .inr (.inr rfl)
  | leave | complete => exact .inr (.inl rfl)
  | handle run result files => exact .inl (Processing.nextUpload_claimed _ _)
  | verify run upload => exact .inl (Processing.nextUpload_claimed _ _)
  | _ => exact .inl rfl

end Turns

/-- The execution has published. -/
def Published (s : Processing.State) (x : ExecutionId) : Prop :=
  ∃ publication ∈ s.publications, publication.execution = x

/-- The row carries the lease of the execution, and the lease is kept. -/
structure Holds (limits : Limits) (s : Workers) (x : ExecutionId) : Prop where
  token : s.system.rows.media.processingLeaseToken = some x
  status : s.system.rows.media.processingStatus = .processing
  generation : ∀ payload attemptsMade,
    (s.system.executions x).delivery = some (payload, attemptsMade) →
      payload.generation = s.system.rows.media.processingGeneration
  pending : ∀ renewal ∈ s.pending x,
    renewal.1 = s.system.rows.media.processingGeneration
  kept : ∃ expiry, s.system.rows.media.processingLeaseExpiresAt = some expiry ∧
    Kept limits s.system.now (s.holder x expiry)

/-- The execution has published and only cleans up. -/
def Done (s : Processing.State) (x : ExecutionId) : Prop :=
  Published s x ∧ works (s.executions x) = false

structure Sound (limits : Limits) (s : Workers) : Prop where
  holds : ∀ x, (s.system.executions x).claimed = true → Done s.system x ∨ Holds limits s x
  published : ∀ x, (s.system.executions x).published = true → Published s.system x
  armed : ∀ x, (s.due x).isSome = renews (s.system.executions x)
  claiming : ∀ x payload attemptsMade asOf,
    s.system.executions x = .claiming payload attemptsMade asOf →
      s.begun x = asOf ∧ asOf ≤ s.system.now
  idle : ∀ x, s.system.executions x = .idle → s.pending x = []
  started : ∀ x, starts (s.system.executions x) = true → s.pending x = []
  early : ∀ x, starts (s.system.executions x) = true →
    s.system.now ≤ s.begun x + limits.startup

section Phases

variable {phase : Phase}

/-- An execution that has claimed either sets its timer up or has set it. -/
theorem starts_of_claimed (claimed : phase.claimed = true) (unarmed : renews phase = false) :
    starts phase = true := by
  cases phase <;> simp [Phase.claimed, renews, starts] at claimed unarmed ⊢

theorem not_starts_of_renews (renewed : renews phase = true) : starts phase = false := by
  cases phase <;> simp [renews, starts] at renewed ⊢

theorem inFlight_of_claimed (claimed : phase.claimed = true) : phase.inFlight = true := by
  cases phase <;> simp [Phase.claimed, Phase.inFlight] at claimed ⊢

theorem nextDue_same {every now : Time} {due : Option Time} (armed : due.isSome = renews phase) :
    nextDue every now due phase = due := by
  unfold nextDue
  cases due with
  | none => simp only [← armed, Option.isSome_none, Bool.false_eq_true, if_false]
  | some due => simp only [← armed, Option.isSome_some, if_true, Option.getD_some]

theorem isSome_nextDue (every now : Time) (due : Option Time) (phase : Phase) :
    (nextDue every now due phase).isSome = renews phase := by
  unfold nextDue
  split <;> simp [*]

theorem claimed_of_published (published : phase.published = true) : phase.claimed = true := by
  cases phase <;> simp [Phase.published, Phase.claimed] at published ⊢

end Phases

section Invariant

variable {limits : Limits} {s t : Workers} {x : ExecutionId}

/-- What does not touch the row keeps the lease while the timer is kept. -/
theorem Holds.next (holds : Holds limits s x)
    (media : t.system.rows.media = s.system.rows.media)
    (delivery : (t.system.executions x).delivery = (s.system.executions x).delivery)
    (pending : t.pending x = s.pending x)
    (kept : ∀ expiry, Kept limits s.system.now (s.holder x expiry) →
      Kept limits t.system.now (t.holder x expiry)) : Holds limits t x where
  token := by rw [media]; exact holds.token
  status := by rw [media]; exact holds.status
  generation payload attemptsMade present := by
    rw [media]
    exact holds.generation payload attemptsMade (delivery ▸ present)
  pending renewal member := by
    rw [media]
    exact holds.pending renewal (pending ▸ member)
  kept := by
    obtain ⟨expiry, expires, before⟩ := holds.kept
    exact ⟨expiry, by rw [media]; exact expires, kept expiry before⟩

/-- Nobody else can claim while a lease is kept. -/
theorem Holds.not_claimable (holds : Holds limits s x) (suffice : limits.Suffice) {generation : ℕ}
    {asOf : Time} (past : asOf ≤ s.system.now) :
    s.system.rows.media.claimable generation asOf = false := by
  obtain ⟨expiry, expires, kept⟩ := holds.kept
  have live : s.system.now < expiry := kept.live suffice
  have running : ¬ expiry ≤ asOf := Nat.not_le.mpr (Nat.lt_of_le_of_lt past live)
  simp [Media.claimable, expires, running]

theorem Published.later {s t : Processing.State}
    (publications : ∀ publication ∈ s.publications, publication ∈ t.publications)
    (published : Published s x) : Published t x := by
  obtain ⟨publication, member, execution⟩ := published
  exact ⟨publication, publications publication member, execution⟩

/-- The timer of an execution that goes on is kept, and the timer that it sets is in time. -/
theorem Sound.kept_follow (sound : Sound limits s) {event : Processing.Event}
    {system : Processing.State} (begun : begunAfter s event x = s.begun x)
    (now : system.now = s.system.now)
    (renewed : renews (s.system.executions x) = true → renews (system.executions x) = true)
    (expiry : Time) (kept : Kept limits s.system.now (s.holder x expiry)) :
    Kept limits system.now ((s.follow limits.every event system).holder x expiry) := by
  have armed := sound.armed x
  rw [now]
  by_cases before : renews (s.system.executions x) = true
  · have same : nextDue limits.every s.system.now (s.due x) (system.executions x) = s.due x :=
      nextDue_same (by rw [armed, before, renewed before])
    simp only [Workers.holder, Workers.follow, begun, same]
    exact kept
  · rw [Bool.not_eq_true] at before
    have unarmed : s.due x = none := by simpa [before] using armed
    by_cases after : renews (system.executions x) = true
    · have set := kept.arm unarmed
      simp only [Workers.holder, Workers.follow, begun, nextDue, after, if_true, unarmed]
      exact set
    · simp only [Workers.holder, Workers.follow, begun, nextDue, if_neg after]
      rw [← unarmed]
      exact kept

end Invariant

section Statements

variable {deployment : Deployment} {limits : Limits} {s : Workers} {x y : ExecutionId}
variable {action : Action} {outcome : Outcome}

/-- The statements of the others do not touch a kept lease. -/
theorem media_of_turn (sound : Sound limits s) (suffice : limits.Suffice)
    (holds : Holds limits s y) (other : y ≠ x)
    (turn : LeaseTurn deployment s.system x (s.system.executions x) outcome) :
    outcome.rows.media = s.system.rows.media := by
  cases turn with
  | keep media => exact media
  | grant payload attemptsMade asOf started matched =>
      have past := (sound.claiming x payload attemptsMade asOf started).2
      rw [holds.not_claimable suffice past] at matched
      cases matched
  | finish run operation rows =>
      have lost : s.system.rows.media.processingLeaseToken ≠ some x := by
        rw [holds.token]
        exact fun same => other (Option.some.inj same)
      rw [rows, Processing.Run.rows, operation.run_of_lost lost]

theorem publications_of_turn
    (turn : LeaseTurn deployment s.system x (s.system.executions x) outcome) :
    ∀ publication ∈ s.system.publications, publication ∈ outcome.publications := by
  cases turn with
  | keep media publications => exact fun _ member => publications ▸ member
  | grant payload attemptsMade asOf started matched media publications =>
      exact fun _ member => publications ▸ member
  | finish run operation rows finishes started worked publications => exact publications

/-- The lease of an execution after its own statement. -/
theorem holds_of_turn (sound : Sound limits s)
    (lease : limits.lease = deployment.processingLeaseSeconds * 1000)
    (turn : LeaseTurn deployment s.system x (s.system.executions x) outcome)
    (claimed : outcome.phase.claimed = true) :
    Done (s.system.commit x outcome) x ∨
      Holds limits (s.follow limits.every (.run x action) (s.system.commit x outcome)) x := by
  have more := publications_of_turn turn
  have own : (s.system.commit x outcome).executions x = outcome.phase := Function.update_self ..
  cases turn with
  | keep media publications follows =>
      rcases sound.holds x (follows.claimed claimed) with ⟨published, idle⟩ | holds
      · refine .inl ⟨published.later more, ?_⟩
        rw [own, Bool.eq_false_iff]
        intro worked
        rw [follows.worked worked] at idle
        cases idle
      · refine .inr (holds.next media ?_ rfl fun expiry kept => ?_)
        · exact (congrArg _ own).trans (follows.delivery claimed)
        · have begun : begunAfter s (.run x action) x = s.begun x := rfl
          have now : (s.system.commit x outcome).now = s.system.now := rfl
          refine sound.kept_follow begun now (fun renewed => ?_) expiry kept
          rw [own]
          exact follows.renewed claimed renewed
  | grant payload attemptsMade asOf started matched media publications next =>
      have reading : outcome.phase = .reading payload attemptsMade := by
        rcases next with reading | threw
        · exact reading
        · rw [threw] at claimed
          cases claimed
      obtain ⟨begun, _⟩ := sound.claiming x payload attemptsMade asOf started
      have starting : starts (s.system.executions x) = true := by rw [started]; rfl
      have fresh := sound.started x starting
      have early := sound.early x starting
      have current : s.system.rows.media.processingGeneration = payload.generation := by
        simp only [Media.claimable, Bool.and_eq_true, decide_eq_true_eq] at matched
        exact matched.1.1
      have unarmed : nextDue limits.every s.system.now (s.due x)
          ((s.system.commit x outcome).executions x) = none := by
        rw [own, reading]
        rfl
      refine .inr ⟨?_, ?_, ?_, ?_, ?_⟩
      · exact congrArg _ media
      · exact congrArg _ media
      · intro payload' attemptsMade' delivery
        have same : (payload, attemptsMade) = (payload', attemptsMade') := by
          rw [show (s.follow limits.every (.run x action)
            (s.system.commit x outcome)).system.executions x = .reading payload attemptsMade from
              own.trans reading] at delivery
          exact Option.some.inj delivery
        cases same
        exact current.symm.trans (congrArg Media.processingGeneration media).symm
      · intro renewal member
        have none' : renewal ∈ s.pending x := member
        rw [fresh] at none'
        cases none'
      · refine ⟨asOf + limits.lease, ?_, ?_⟩
        · rw [lease]
          exact congrArg _ media
        · have taken := @Renewal.kept_take limits s.system.now (s.begun x) early
          simp only [Workers.holder, Workers.follow, unarmed, begunAfter, fresh, List.map_nil]
          rw [begun] at taken ⊢
          exact taken
  | finish run operation rows finishes started worked publications published =>
      refine .inl ⟨?_, own.symm ▸ worked⟩
      rcases published claimed with before | after
      · exact (sound.published x before).later more
      · exact after

theorem sound_act (sound : Sound limits s) (suffice : limits.Suffice)
    (lease : limits.lease = deployment.processingLeaseSeconds * 1000)
    (taken : Processing.act deployment s.system x action (s.system.executions x) = some outcome) :
    Sound limits (s.follow limits.every (.run x action) (s.system.commit x outcome)) := by
  have turn := leaseTurn_of_act taken
  have more := publications_of_turn turn
  have phase := phase_of_act taken
  have own : (s.system.commit x outcome).executions x = outcome.phase := Function.update_self ..
  have others (y : ExecutionId) (other : y ≠ x) :
      (s.system.commit x outcome).executions y = s.system.executions y :=
    Function.update_of_ne other ..
  have started (begins : starts outcome.phase = true) :
      starts (s.system.executions x) = true := by
    cases turn with
    | keep media publications follows => exact follows.started begins
    | grant payload attemptsMade asOf claiming => rw [claiming]; rfl
    | finish run operation rows finishes started => rw [started] at begins; cases begins
  exact
    { holds := fun y claimed => by
        by_cases same : y = x
        · subst same
          exact holds_of_turn sound lease turn (own ▸ claimed)
        · have phase := others y same
          rw [show (s.follow limits.every (.run x action)
            (s.system.commit x outcome)).system.executions y = _ from phase] at claimed
          rcases sound.holds y claimed with ⟨published, idle⟩ | holds
          · exact .inl ⟨published.later more, phase.symm ▸ idle⟩
          · refine .inr (holds.next (media_of_turn sound suffice holds same turn)
              (congrArg _ phase) rfl fun expiry kept => ?_)
            have begun : begunAfter s (.run x action) y = s.begun y := rfl
            have now : (s.system.commit x outcome).now = s.system.now := rfl
            exact sound.kept_follow begun now (fun renewed => phase.symm ▸ renewed) expiry kept
      published := fun y published => by
        by_cases same : y = x
        · subst same
          rw [show (s.follow limits.every (.run y action)
            (s.system.commit y outcome)).system.executions y = _ from own] at published
          cases turn with
          | keep media publications follows =>
              exact (sound.published y (follows.published published)).later more
          | grant payload attemptsMade asOf claiming matched media publications next =>
              rcases next with reading | threw
              · rw [reading] at published
                cases published
              · rw [threw] at published
                cases published
          | finish run operation rows finishes started worked publications finished =>
              rcases finished (claimed_of_published published) with before | after
              · exact (sound.published y before).later more
              · exact after
        · rw [show (s.follow limits.every (.run x action)
            (s.system.commit x outcome)).system.executions y = _ from others y same] at published
          exact (sound.published y published).later more
      armed := fun y => isSome_nextDue ..
      claiming := fun y payload attemptsMade asOf claiming => by
        by_cases same : y = x
        · subst same
          rw [show outcome.phase = _ from own.symm.trans claiming] at phase
          rcases phase with claimed | returned | threw
          · cases claimed
          · cases returned
          · cases threw
        · exact sound.claiming y payload attemptsMade asOf ((others y same).symm.trans claiming)
      idle := fun y idle => by
        by_cases same : y = x
        · subst same
          rw [show outcome.phase = _ from own.symm.trans idle] at phase
          rcases phase with claimed | returned | threw
          · cases claimed
          · cases returned
          · cases threw
        · exact sound.idle y ((others y same).symm.trans idle)
      started := fun y begins => by
        by_cases same : y = x
        · subst same
          exact sound.started y (started (own ▸ begins))
        · exact sound.started y (others y same ▸ begins)
      early := fun y begins => by
        by_cases same : y = x
        · subst same
          exact sound.early y (started (own ▸ begins))
        · exact sound.early y (others y same ▸ begins) }

end Statements

section Events

variable {deployment : Deployment} {processingLeaseRenewSeconds : ℕ} {timing : Timing}
variable {limits : Limits} {s t : Workers} {x : ExecutionId} {event : Processing.Event}

/-- An execution begins or dies. -/
theorem sound_goto (sound : Sound limits s) {next : Phase} (unclaimed : next.claimed = false)
    (begun : ∀ y, y ≠ x → begunAfter s event y = s.begun y) (alive : next ≠ .idle)
    (claiming : ∀ payload attemptsMade asOf, next = .claiming payload attemptsMade asOf →
      begunAfter s event x = asOf ∧ asOf = s.system.now ∧ s.pending x = []) :
    Sound limits (s.follow limits.every event (s.system.commit x (s.system.goto next))) := by
  have own : (s.system.commit x (s.system.goto next)).executions x = next :=
    Function.update_self ..
  have others (y : ExecutionId) (other : y ≠ x) :
      (s.system.commit x (s.system.goto next)).executions y = s.system.executions y :=
    Function.update_of_ne other ..
  have starting (begins : starts next = true) :
      begunAfter s event x = s.system.now ∧ s.pending x = [] := by
    cases next <;> simp only [Phase.claimed, starts, Bool.false_eq_true, reduceCtorEq] at *
    obtain ⟨begun, now, pending⟩ := claiming _ _ _ rfl
    exact ⟨begun.trans now, pending⟩
  exact
    { holds := fun y claimed => by
        by_cases same : y = x
        · subst same
          have phase : next.claimed = true := own ▸ claimed
          rw [unclaimed] at phase
          cases phase
        · rcases sound.holds y (others y same ▸ claimed) with ⟨published, idle⟩ | holds
          · exact .inl ⟨published, (others y same).symm ▸ idle⟩
          · refine .inr (holds.next rfl (congrArg _ (others y same)) rfl fun expiry kept => ?_)
            have now : (s.system.commit x (s.system.goto next)).now = s.system.now := rfl
            exact sound.kept_follow (begun y same) now
              (fun renewed => (others y same).symm ▸ renewed) expiry kept
      published := fun y published => by
        by_cases same : y = x
        · subst same
          have phase := claimed_of_published (own ▸ published : next.published = true)
          rw [unclaimed] at phase
          cases phase
        · exact sound.published y (others y same ▸ published)
      armed := fun y => isSome_nextDue ..
      claiming := fun y payload attemptsMade asOf claims => by
        by_cases same : y = x
        · subst same
          obtain ⟨begun, now, _⟩ := claiming payload attemptsMade asOf (own.symm.trans claims)
          exact ⟨begun, Nat.le_of_eq now⟩
        · obtain ⟨earlier, past⟩ :=
            sound.claiming y payload attemptsMade asOf ((others y same).symm.trans claims)
          exact ⟨(begun y same).trans earlier, past⟩
      idle := fun y idle => by
        by_cases same : y = x
        · subst same
          exact absurd (own.symm.trans idle) alive
        · exact sound.idle y ((others y same).symm.trans idle)
      started := fun y begins => by
        by_cases same : y = x
        · subst same
          exact (starting (own ▸ begins)).2
        · exact sound.started y (others y same ▸ begins)
      early := fun y begins => by
        by_cases same : y = x
        · subst same
          show s.system.now ≤ begunAfter s event y + limits.startup
          rw [(starting (own ▸ begins)).1]
          exact Nat.le_add_right ..
        · have early := sound.early y (others y same ▸ begins)
          rw [← begun y same] at early
          exact early }

/-- Clients and dispatchers leave a kept lease alone. -/
theorem sound_rows (sound : Sound limits s) {rows : Processing.Rows}
    (begun : ∀ y, begunAfter s event y = s.begun y)
    (held : ∀ y, Holds limits s y → rows.media = s.system.rows.media) :
    Sound limits (s.follow limits.every event { s.system with rows := rows }) where
  holds y claimed := by
    rcases sound.holds y claimed with done | holds
    · exact .inl done
    · refine .inr (holds.next (held y holds) rfl rfl fun expiry kept => ?_)
      have now : ({ s.system with rows := rows } : Processing.State).now = s.system.now := rfl
      exact sound.kept_follow (begun y) now (fun renewed => renewed) expiry kept
  published := sound.published
  armed y := isSome_nextDue ..
  claiming y payload attemptsMade asOf claims := by
    obtain ⟨earlier, past⟩ := sound.claiming y payload attemptsMade asOf claims
    exact ⟨(begun y).trans earlier, past⟩
  idle := sound.idle
  started := sound.started
  early y begins := by
    have early := sound.early y begins
    rw [← begun y] at early
    exact early

theorem sound_tick {duration : Time}
    (sound : Sound (timing.limits deployment processingLeaseRenewSeconds) s)
    (prompt : Prompt timing s (.system (.tick duration))) :
    Sound (timing.limits deployment processingLeaseRenewSeconds)
      (s.follow (every processingLeaseRenewSeconds) (.tick duration)
        { s.system with now := s.system.now + duration }) where
  holds y claimed := by
    rcases sound.holds y claimed with done | holds
    · exact .inl done
    · obtain ⟨startup, timer, renewal⟩ := prompt y
      have same : nextDue (every processingLeaseRenewSeconds) s.system.now (s.due y)
          (s.system.executions y) = s.due y := nextDue_same (sound.armed y)
      refine .inr (holds.next rfl rfl rfl fun expiry kept => ?_)
      simp only [Workers.holder, Workers.follow, same]
      refine kept.wait (Nat.le_add_right ..)
        ⟨fun unarmed => startup ?_, timer, fun asOf issued => ?_⟩
      · have idle : renews (s.system.executions y) = false := by
          rw [← sound.armed y, show s.due y = none from unarmed]
          rfl
        exact starts_of_claimed claimed idle
      · obtain ⟨pair, member, rfl⟩ := List.mem_map.mp issued
        exact renewal pair member
  published := sound.published
  armed y := isSome_nextDue ..
  claiming y payload attemptsMade asOf claims := by
    obtain ⟨earlier, past⟩ := sound.claiming y payload attemptsMade asOf claims
    exact ⟨earlier, Nat.le_trans past (Nat.le_add_right ..)⟩
  idle := sound.idle
  started := sound.started
  early y begins := (prompt y).1 begins

theorem sound_fire
    (sound : Sound (timing.limits deployment processingLeaseRenewSeconds) s)
    (taken : stepFire processingLeaseRenewSeconds s x = some t) :
    Sound (timing.limits deployment processingLeaseRenewSeconds) t := by
  simp only [stepFire] at taken
  split at taken
  · rename_i due payload attemptsMade armed delivery
    split at taken <;> cases taken
    rename_i ripe
    have renewed : renews (s.system.executions x) = true := by
      rw [← sound.armed x, armed]
      rfl
    have late := not_starts_of_renews renewed
    exact
      { holds := fun y claimed => by
          rcases sound.holds y claimed with done | holds
          · exact .inl done
          · right
            by_cases same : y = x
            · subst same
              refine ⟨holds.token, holds.status, holds.generation, ?_, ?_⟩
              · intro renewal member
                simp only [Function.update_self] at member
                rcases List.mem_cons.mp member with rfl | before
                · exact holds.generation payload attemptsMade delivery
                · exact holds.pending renewal before
              · obtain ⟨expiry, expires, kept⟩ := holds.kept
                refine ⟨expiry, expires, ?_⟩
                simp only [Workers.holder, Function.update_self, List.map_cons]
                exact kept.fire armed ripe
            · refine holds.next rfl rfl (Function.update_of_ne same ..) fun expiry kept => ?_
              simp only [Workers.holder, Function.update_of_ne same]
              exact kept
        published := sound.published
        armed := fun y => by
          by_cases same : y = x
          · subst same
            simp only [Function.update_self, renewed, Option.isSome_some]
          · simp only [Function.update_of_ne same, sound.armed y]
        claiming := sound.claiming
        idle := fun y idle => by
          have other : y ≠ x := by
            rintro rfl
            rw [show s.system.executions y = _ from idle] at renewed
            cases renewed
          simp only [Function.update_of_ne other]
          exact sound.idle y idle
        started := fun y begins => by
          have other : y ≠ x := by
            rintro rfl
            rw [show starts (s.system.executions y) = _ from begins] at late
            cases late
          simp only [Function.update_of_ne other]
          exact sound.started y begins
        early := sound.early }
  · cases taken

/-- The renewals of one generation are told apart by the time of their clock. -/
theorem map_snd_erase {renewals : List (ℕ × Time)} {generation : ℕ} (asOf : Time)
    (same : ∀ renewal ∈ renewals, renewal.1 = generation) :
    (renewals.erase (generation, asOf)).map Prod.snd = (renewals.map Prod.snd).erase asOf := by
  have paired : renewals = (renewals.map Prod.snd).map (Prod.mk generation) := by
    rw [List.map_map]
    refine (List.map_id renewals).symm.trans (List.map_congr_left fun renewal member => ?_)
    rw [id, Function.comp_apply, ← same renewal member]
  have erased := List.map_erase (Prod.mk_right_injective generation) (renewals.map Prod.snd)
    (a := asOf)
  rw [← paired] at erased
  rw [← erased, List.map_map]
  exact List.map_id _

theorem sound_renew {generation : ℕ} {asOf : Time}
    (sound : Sound (timing.limits deployment processingLeaseRenewSeconds) s)
    (taken : stepRenew deployment s x generation asOf = some t) :
    Sound (timing.limits deployment processingLeaseRenewSeconds) t := by
  simp only [stepRenew, Processing.step] at taken
  split at taken
  · rename_i issued
    split at taken <;> cases taken
    rename_i past
    have fewer (y : ExecutionId) (none' : s.pending y = []) :
        Function.update s.pending x ((s.pending x).erase (generation, asOf)) y = [] := by
      by_cases same : y = x
      · subst same
        rw [none'] at issued
        cases issued
      · rw [Function.update_of_ne same]
        exact none'
    exact
      { holds := fun y claimed => by
          rcases sound.holds y claimed with done | holds
          · exact .inl done
          · right
            by_cases same : y = x
            · subst same
              have current := holds.pending _ issued
              have matched : s.system.rows.media.renewable generation y = true := by
                simp [Media.renewable, Media.guarded, holds.token, holds.status, ← current]
              obtain ⟨expiry, expires, kept⟩ := holds.kept
              have member : asOf ∈ (s.holder y expiry).pending :=
                List.mem_map_of_mem (f := Prod.snd) issued
              have left := map_snd_erase asOf fun renewal before =>
                (holds.pending renewal before).trans current.symm
              simp only [Operation.run, if_pos matched]
              refine ⟨holds.token, holds.status, holds.generation, ?_,
                asOf + deployment.processingLeaseSeconds * 1000, rfl, ?_⟩
              · intro renewal before
                simp only [Function.update_self] at before
                exact holds.pending renewal (List.mem_of_mem_erase before)
              · simp only [Workers.holder, Function.update_self, left]
                exact kept.renew member past
            · have lost : s.system.rows.media.processingLeaseToken ≠ some x := by
                rw [holds.token]
                exact fun same' => same (Option.some.inj same')
              rw [(Operation.renew deployment.processingLeaseSeconds).run_of_lost lost]
              refine holds.next rfl rfl (Function.update_of_ne same ..) fun expiry kept => ?_
              simp only [Workers.holder, Function.update_of_ne same]
              exact kept
        published := sound.published
        armed := sound.armed
        claiming := sound.claiming
        idle := fun y idle => fewer y (sound.idle y idle)
        started := fun y begins => fewer y (sound.started y begins)
        early := sound.early }
  · cases taken

theorem sound_drop (sound : Sound limits s) (taken : stepDrop s x = some t) : Sound limits t := by
  simp only [stepDrop] at taken
  split at taken <;> cases taken
  rename_i settled
  have fewer (y : ExecutionId) (none' : s.pending y = []) :
      Function.update s.pending x [] y = [] := by
    by_cases same : y = x
    · subst same
      exact Function.update_self ..
    · rw [Function.update_of_ne same]
      exact none'
  exact
    { holds := fun y claimed => by
        rcases sound.holds y claimed with done | holds
        · exact .inl done
        · have other : y ≠ x := by
            rintro rfl
            exact settled (inFlight_of_claimed claimed)
          refine .inr (holds.next rfl rfl (Function.update_of_ne other ..) fun expiry kept => ?_)
          simp only [Workers.holder, Function.update_of_ne other]
          exact kept
      published := sound.published
      armed := sound.armed
      claiming := sound.claiming
      idle := fun y idle => fewer y (sound.idle y idle)
      started := fun y begins => fewer y (sound.started y begins)
      early := sound.early }

theorem sound_system (suffice : (timing.limits deployment processingLeaseRenewSeconds).Suffice)
    (sound : Sound (timing.limits deployment processingLeaseRenewSeconds) s)
    (prompt : Prompt timing s (.system event))
    (taken : stepSystem deployment processingLeaseRenewSeconds s event = some t) :
    Sound (timing.limits deployment processingLeaseRenewSeconds) t := by
  cases event with
  | renew => cases taken
  | tick duration =>
      cases taken
      exact sound_tick sound prompt
  | deliver y payload attemptsMade =>
      obtain ⟨system, stepped, rfl⟩ := Option.map_eq_some_iff.mp taken
      simp only [Processing.step] at stepped
      split at stepped
      · rename_i idle
        split at stepped <;> cases stepped
        refine sound_goto sound rfl (fun z other => Function.update_of_ne other ..)
          (fun impossible => by cases impossible) ?_
        intro payload' attemptsMade' asOf claims
        cases claims
        exact ⟨Function.update_self .., rfl, sound.idle y idle⟩
      · cases stepped
  | run y action =>
      obtain ⟨system, stepped, rfl⟩ := Option.map_eq_some_iff.mp taken
      obtain ⟨outcome, acted, rfl⟩ := Option.map_eq_some_iff.mp stepped
      exact sound_act sound suffice rfl acted
  | crash y =>
      obtain ⟨system, stepped, rfl⟩ := Option.map_eq_some_iff.mp taken
      simp only [Processing.step] at stepped
      split at stepped <;> cases stepped
      refine sound_goto sound rfl (fun _ _ => rfl) (fun impossible => by cases impossible) ?_
      intro payload attemptsMade asOf impossible
      cases impossible
  | retry id dispatchId =>
      obtain ⟨system, stepped, rfl⟩ := Option.map_eq_some_iff.mp taken
      obtain ⟨rows, retried, rfl⟩ := Option.map_eq_some_iff.mp stepped
      refine sound_rows sound (fun _ => rfl) fun y holds => ?_
      obtain ⟨_, failed, _⟩ := Processing.retry_spec retried
      rw [holds.status] at failed
      cases failed
  | outbox dispatches =>
      cases taken
      exact sound_rows sound (fun _ => rfl) fun _ _ => rfl

theorem sound_step {event : Event}
    (suffice : (timing.limits deployment processingLeaseRenewSeconds).Suffice)
    (sound : Sound (timing.limits deployment processingLeaseRenewSeconds) s)
    (prompt : Prompt timing s event)
    (taken : step deployment processingLeaseRenewSeconds s event = some t) :
    Sound (timing.limits deployment processingLeaseRenewSeconds) t := by
  cases event with
  | system event => exact sound_system suffice sound prompt taken
  | fire x => exact sound_fire sound taken
  | renew x generation asOf => exact sound_renew sound taken
  | drop x => exact sound_drop sound taken

end Events

theorem sound_of_reachable {deployment : Deployment} {processingLeaseRenewSeconds : ℕ}
    {timing : Timing} {s : Workers}
    (suffice : (timing.limits deployment processingLeaseRenewSeconds).Suffice)
    (reached : (machine deployment processingLeaseRenewSeconds).Reachable (Prompt timing) s) :
    Sound (timing.limits deployment processingLeaseRenewSeconds) s := by
  refine reached.invariant ?_ fun _ _ _ prompt taken sound => sound_step suffice sound prompt taken
  rintro start ⟨⟨_, _, _, idle, _⟩, due, pending⟩
  exact
    { holds := fun x claimed => by rw [idle x] at claimed; cases claimed
      published := fun x published => by rw [idle x] at published; cases published
      armed := fun x => by rw [due x, idle x]; rfl
      claiming := fun x payload attemptsMade asOf claims => by rw [idle x] at claims; cases claims
      idle := fun x _ => pending x
      started := fun x begins => by rw [idle x] at begins; cases begins
      early := fun x begins => by rw [idle x] at begins; cases begins }

/-- The late renewals of the others find their guard lost. -/
theorem media_of_renew {deployment : Deployment} {limits : Limits} {s t : Workers}
    {x y : ExecutionId} {generation : ℕ} {asOf : Time} (holds : Holds limits s y) (other : y ≠ x)
    (taken : stepRenew deployment s x generation asOf = some t) :
    t.system.rows.media = s.system.rows.media := by
  have lost : s.system.rows.media.processingLeaseToken ≠ some x := by
    rw [holds.token]
    exact fun same => other (Option.some.inj same)
  simp only [stepRenew, Processing.step] at taken
  split at taken
  · split at taken <;> cases taken
    simp only [(Operation.renew deployment.processingLeaseSeconds).run_of_lost lost]
  · cases taken

section Terms

variable {deployment : Deployment} {s t : Processing.State} {x : ExecutionId}

/-- No lease lasts longer than its term from now. -/
structure Termed (deployment : Deployment) (s : Processing.State) : Prop where
  expires : ∀ expiry, s.rows.media.processingLeaseExpiresAt = some expiry →
    expiry ≤ s.now + deployment.processingLeaseSeconds * 1000
  claiming : ∀ x payload attemptsMade asOf,
    s.executions x = .claiming payload attemptsMade asOf → asOf ≤ s.now

/-- An operation that gives the lease up leaves no expiry or changes nothing. -/
theorem expiry_of_finish (operation : Operation) (rows : Processing.Rows) (generation : ℕ)
    (token : LeaseToken) (now : Time) (finishes : operation.finishes = true) :
    (operation.run rows generation token now).1.media.processingLeaseExpiresAt = none ∨
      (operation.run rows generation token now).1 = rows := by
  cases operation <;> simp only [Operation.finishes, Bool.false_eq_true] at finishes
  all_goals
    simp only [Operation.run]
    split
    · exact .inl rfl
    · exact .inr rfl

theorem termed_act {action : Action} {outcome : Outcome} (termed : Termed deployment s)
    (taken : Processing.act deployment s x action (s.executions x) = some outcome) :
    Termed deployment (s.commit x outcome) where
  expires expiry expires := by
    have turn := leaseTurn_of_act taken
    cases turn with
    | keep media =>
        rw [show (s.commit x outcome).rows.media = _ from media] at expires
        exact termed.expires expiry expires
    | grant payload attemptsMade asOf started matched media =>
        rw [show (s.commit x outcome).rows.media = _ from media] at expires
        cases expires
        exact Nat.add_le_add_right (termed.claiming x payload attemptsMade asOf started) _
    | finish run operation rows finishes =>
        rw [show (s.commit x outcome).rows = _ from rows] at expires
        rcases expiry_of_finish operation s.rows run.payload.generation x s.now finishes with
          free | same
        · rw [show (run.rows operation s x).media.processingLeaseExpiresAt = _ from free] at expires
          cases expires
        · rw [show run.rows operation s x = _ from same] at expires
          exact termed.expires expiry expires
  claiming y payload attemptsMade asOf claims := by
    have phase := phase_of_act taken
    by_cases same : y = x
    · subst same
      have own : (s.commit y outcome).executions y = outcome.phase := Function.update_self ..
      rw [show outcome.phase = _ from own.symm.trans claims] at phase
      rcases phase with claimed | returned | threw
      · cases claimed
      · cases returned
      · cases threw
    · have other : (s.commit x outcome).executions y = s.executions y :=
        Function.update_of_ne same ..
      exact termed.claiming y payload attemptsMade asOf (other.symm.trans claims)

theorem termed_step {event : Processing.Event} (termed : Termed deployment s)
    (taken : Processing.step deployment s event = some t) : Termed deployment t := by
  cases event with
  | tick duration =>
      cases taken
      refine ⟨fun expiry expires => Nat.le_trans (termed.expires expiry expires) ?_, ?_⟩
      · exact Nat.add_le_add_right (Nat.le_add_right ..) _
      · intro x payload attemptsMade asOf claims
        exact Nat.le_trans (termed.claiming x payload attemptsMade asOf claims)
          (Nat.le_add_right ..)
  | deliver x payload attemptsMade =>
      simp only [Processing.step] at taken
      repeat' split at taken
      all_goals cases taken
      refine ⟨termed.expires, fun y payload' attemptsMade' asOf claims => ?_⟩
      by_cases same : y = x
      · subst same
        rw [show (s.commit y (s.goto (.claiming payload attemptsMade s.now))).executions y = _ from
          Function.update_self ..] at claims
        cases claims
        exact Nat.le_refl _
      · exact termed.claiming y payload' attemptsMade' asOf
          ((Function.update_of_ne same ..).symm.trans claims)
  | run x action =>
      obtain ⟨outcome, acted, rfl⟩ := Option.map_eq_some_iff.mp taken
      exact termed_act termed acted
  | renew x generation asOf =>
      simp only [Processing.step, Operation.run] at taken
      split at taken <;> cases taken
      rename_i past
      refine ⟨fun expiry expires => ?_, termed.claiming⟩
      split at expires
      · cases expires
        exact Nat.add_le_add_right past _
      · exact termed.expires expiry expires
  | crash x =>
      simp only [Processing.step] at taken
      split at taken <;> cases taken
      refine ⟨termed.expires, fun y payload attemptsMade asOf claims => ?_⟩
      by_cases same : y = x
      · subst same
        rw [show (s.commit y (s.goto .crashed)).executions y = _ from Function.update_self ..]
          at claims
        cases claims
      · exact termed.claiming y payload attemptsMade asOf
          ((Function.update_of_ne same ..).symm.trans claims)
  | retry id dispatchId =>
      obtain ⟨rows, retried, rfl⟩ := Option.map_eq_some_iff.mp taken
      obtain ⟨_, _, rfl⟩ := Processing.retry_spec retried
      refine ⟨?_, termed.claiming⟩
      intro expiry impossible
      cases impossible
  | outbox dispatches =>
      cases taken
      exact ⟨termed.expires, termed.claiming⟩

theorem termed_of_reachable {guard : Processing.State → Processing.Event → Prop}
    (reached : (Processing.machine deployment).Reachable guard s) : Termed deployment s := by
  refine reached.invariant ?_ fun _ _ _ _ taken termed => termed_step termed taken
  rintro start ⟨fresh, _, _, idle, _⟩
  refine ⟨fun expiry expires => ?_, fun x payload attemptsMade asOf claims => ?_⟩
  · rw [fresh.expiry] at expires
    cases expires
  · rw [idle x] at claims
    cases claims

end Terms

theorem claimed_of_works {phase : Phase} (working : works phase = true) : phase.claimed = true := by
  cases phase <;> simp [works, Phase.claimed] at working ⊢

/-- The whole seconds of the configuration leave room for a second of lateness. -/
theorem suffice_of_configured {deployment : Deployment} {processingLeaseRenewSeconds : ℕ}
    {timing : Timing} (positive : 1 ≤ processingLeaseRenewSeconds)
    (less : processingLeaseRenewSeconds < deployment.processingLeaseSeconds)
    (short : timing.startup + timing.patience + timing.delay < 1000) :
    (timing.limits deployment processingLeaseRenewSeconds).Suffice := by
  refine Renewal.suffice_of_seconds positive less ?_ rfl short
  simp only [Timing.limits, every, timerDelay]
  split
  · exact .inl rfl
  · exact .inr rfl

/-- The execution needs its lease. -/
def Needs (s : Workers) (x : ExecutionId) : Prop :=
  (s.system.executions x).claimed = true ∧ ¬ Published s.system x

/-- What the renewals of prompt workers achieve, and what is left of a lease without them. -/
structure RenewalLaw (deployment : Deployment) (processingLeaseRenewSeconds : ℕ) : Prop where
  held : ∀ timing, (timing.limits deployment processingLeaseRenewSeconds).Suffice →
    ∀ s, (machine deployment processingLeaseRenewSeconds).Reachable (Prompt timing) s →
      ∀ x, Needs s x → s.system.rows.media.processingLeaseToken = some x ∧
        s.system.rows.media.processingStatus = .processing ∧
        ∃ expiry, s.system.rows.media.processingLeaseExpiresAt = some expiry ∧
          s.system.now < expiry
  alone : ∀ timing, (timing.limits deployment processingLeaseRenewSeconds).Suffice →
    ∀ s, (machine deployment processingLeaseRenewSeconds).Reachable (Prompt timing) s →
      ∀ x y, Needs s x → Needs s y → x = y
  untouched : ∀ timing, (timing.limits deployment processingLeaseRenewSeconds).Suffice →
    ∀ s, (machine deployment processingLeaseRenewSeconds).Reachable (Prompt timing) s →
      ∀ x y, Needs s x → y ≠ x → ∀ action outcome,
        Processing.act deployment s.system y action (s.system.executions y) = some outcome →
          outcome.rows.media = s.system.rows.media
  unrenewed : ∀ timing, (timing.limits deployment processingLeaseRenewSeconds).Suffice →
    ∀ s, (machine deployment processingLeaseRenewSeconds).Reachable (Prompt timing) s →
      ∀ x y, Needs s x → y ≠ x → ∀ generation asOf t,
        stepRenew deployment s y generation asOf = some t →
          t.system.rows.media = s.system.rows.media
  publishes : ∀ timing, (timing.limits deployment processingLeaseRenewSeconds).Suffice →
    ∀ s, (machine deployment processingLeaseRenewSeconds).Reachable (Prompt timing) s →
      ∀ x run upload, s.system.executions x = .committing run upload →
        s.system.rows.media.guarded run.payload.generation x = true
  lapses : ∀ s, (Processing.machine deployment).Reachable Machine.anything s →
    s.rows.media.processingStatus ≠ .completed →
      ∀ later, s.now + deployment.processingLeaseSeconds * 1000 ≤ later →
        s.rows.media.claimable s.rows.media.processingGeneration later = true

/-- Prompt workers keep their lease until they have published, so no other execution works on the
media meanwhile, and a dead one blocks it for one term at most. -/
theorem renewal_law (deployment : Deployment) (processingLeaseRenewSeconds : ℕ) :
    RenewalLaw deployment processingLeaseRenewSeconds where
  held timing suffice s reached x needs := by
    have sound := sound_of_reachable suffice reached
    have holds := (sound.holds x needs.1).resolve_left fun done => needs.2 done.1
    obtain ⟨expiry, expires, kept⟩ := holds.kept
    exact ⟨holds.token, holds.status, expiry, expires, kept.live suffice⟩
  alone timing suffice s reached x y needs needs' := by
    have sound := sound_of_reachable suffice reached
    have holds := (sound.holds x needs.1).resolve_left fun done => needs.2 done.1
    have holds' := (sound.holds y needs'.1).resolve_left fun done => needs'.2 done.1
    exact Option.some.inj (holds.token.symm.trans holds'.token)
  untouched timing suffice s reached x y needs other action outcome taken := by
    have sound := sound_of_reachable suffice reached
    have holds := (sound.holds x needs.1).resolve_left fun done => needs.2 done.1
    exact media_of_turn sound suffice holds (Ne.symm other) (leaseTurn_of_act taken)
  unrenewed timing suffice s reached x y needs other generation asOf t taken := by
    have sound := sound_of_reachable suffice reached
    have holds := (sound.holds x needs.1).resolve_left fun done => needs.2 done.1
    exact media_of_renew holds (Ne.symm other) taken
  publishes timing suffice s reached x run upload committing := by
    have sound := sound_of_reachable suffice reached
    have working : works (s.system.executions x) = true := by rw [committing]; rfl
    rcases sound.holds x (claimed_of_works working) with done | holds
    · rw [done.2] at working
      cases working
    · have generation := holds.generation run.payload run.attemptsMade (by rw [committing]; rfl)
      simp [Media.guarded, holds.token, generation]
  lapses s reached unfinished later past := by
    have termed := termed_of_reachable reached
    cases expires : s.rows.media.processingLeaseExpiresAt with
    | none => simp [Media.claimable, unfinished, expires]
    | some expiry =>
        have ended : expiry ≤ later := Nat.le_trans (termed.expires expiry expires) past
        simp [Media.claimable, unfinished, expires, ended]

/-- Any event but the passing of time. -/
def Immediate (_ : Workers) : Event → Prop
  | .system (.tick _) => False
  | _ => True

instance (s : Workers) (event : Event) : Decidable (Immediate s event) := by
  unfold Immediate
  split <;> infer_instance

theorem prompt_of_immediate {timing : Timing} (s : Workers) (event : Event)
    (immediate : Immediate s event) : Prompt timing s event := by
  cases event with
  | system event => cases event <;> first | exact trivial | exact immediate.elim
  | fire | renew | drop => trivial

def minuteMachine : Machine Workers Event := machine Processing.sampleDeployment 40

def promptTiming : Timing := ⟨10, 20, 30⟩

def newWorkers : Workers := ⟨Processing.recordingStart, fun _ => 0, fun _ => none, fun _ => []⟩

def handling : Workers :=
  (minuteMachine.execute Immediate newWorkers
    ((Processing.toHandler 0).map .system)).getD newWorkers

def ringing : Workers := (minuteMachine.step handling (.system (.tick 40000))).getD handling

def renewed : Workers :=
  (minuteMachine.execute Immediate ringing [.fire 0, .renew 0 1 40000]).getD ringing

def outlasting : Workers := (minuteMachine.step renewed (.system (.tick 40000))).getD renewed

/-- Only the timer of the execution is armed, and it fires after forty seconds. -/
theorem prompt_until_due {s : Workers} (armed : s = handling ∨ s = renewed) :
    Prompt promptTiming s (.system (.tick 40000)) := by
  rcases armed with rfl | rfl
  all_goals
    rintro (_ | x)
    · refine ⟨fun begins => ?_, fun due armed => ?_, fun _ issued => ?_⟩
      · cases begins
      · cases armed
        exact Nat.le_of_ble_eq_true rfl
      · cases issued
    · refine ⟨fun begins => ?_, fun due armed => ?_, fun _ issued => ?_⟩
      · cases begins
      · cases armed
      · cases issued

/-- A handler that takes longer than the lease of a minute still holds it. -/
theorem renewal_law_slowHandler : minuteMachine.Reachable (Prompt promptTiming) outlasting ∧
    outlasting.system.now = 80000 ∧
    ∃ expiry, outlasting.system.rows.media.processingLeaseExpiresAt = some expiry ∧
      outlasting.system.now < expiry := by
  have claimed : minuteMachine.execute Immediate newWorkers
      ((Processing.toHandler 0).map .system) = some handling := rfl
  have extended : minuteMachine.execute Immediate ringing [.fire 0, .renew 0 1 40000] =
      some renewed := rfl
  have path := (((Machine.path_of_execute _ claimed).mono prompt_of_immediate).snoc
    (.system (.tick 40000)) (prompt_until_due (.inl rfl)) (u := ringing) rfl).trans
      ((Machine.path_of_execute _ extended).mono prompt_of_immediate)
  have reached : minuteMachine.Reachable (Prompt promptTiming) outlasting :=
    ⟨newWorkers, ⟨Processing.recordingStart_initial, fun _ => rfl, fun _ => rfl⟩,
      path.snoc (.system (.tick 40000)) (prompt_until_due (.inr rfl)) rfl⟩
  have needs : Needs outlasting 0 := ⟨rfl, by rintro ⟨_, member, _⟩; cases member⟩
  exact ⟨reached, rfl, ((renewal_law Processing.sampleDeployment 40).held promptTiming
    ⟨by decide⟩ outlasting reached 0 needs).2.2⟩

end PostsMedia.Renewals
