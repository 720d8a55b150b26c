import PostsMedia.Processing.Promptness

namespace PostsMedia.Consumers

open Shutdown (Fleet)

open Supervision (Run)

abbrev JobId := Nat

/-- The program point of `MediaQueueConsumersService.onModuleDestroy`. It has ended with the force
of its `close` calls or by an error. -/
inductive Destroy
  | running
  | pausing
  | stopping
  | draining (began wake : Time)
  | closing (began : Time) (forced : Bool) (since : Time)
  | ended (forced : Option Bool)

/-- The program point of `PrismaService.onModuleDestroy`. -/
inductive Prisma
  | connected
  | waiting
  | disconnected

variable {ι χ : Type} {β ε ρ : ι → Type}

/-- The consumers with their running calls of `process`, and the two services that they stop. -/
structure State (β ε ρ : ι → Type) where
  fleet : Fleet β ε ρ
  active : List JobId
  activeJobs : Nat
  destroy : Destroy
  barrier : Bool
  prisma : Prisma

/-- What happens in a worker, in any order. A call of `process` finishes with or without an
error. -/
inductive Event (χ : Type) (ε : ι → Type)
  | start (job : JobId)
  | finish (job : JobId)
  | destroy
  | paused (resolved : Bool)
  | stopped
  | wake
  | closed (resolved : Bool)
  | prismaDestroy
  | disconnect
  | fleet (event : Shutdown.Event χ ε)

/-- How long `onModuleDestroy` waits for the jobs. -/
def drainMs : Time := 5000

def pollMs : Time := 25

section Steps

variable [DecidableEq ι] (runs : (id : ι) → Run (β id) χ (ε id) (ρ id)) (s : State β ε ρ)

/-- The condition of the loop, and the `close` calls after it. -/
def drain (began : Time) : State β ε ρ :=
  { s with
    destroy :=
      if 0 < s.activeJobs ∧ s.fleet.now < began + drainMs then
        .draining began (s.fleet.now + pollMs)
      else .closing began (decide (0 < s.activeJobs)) s.fleet.now }

/-- The `finally` block resolves the barrier. -/
def finish (forced : Option Bool) : State β ε ρ :=
  { s with destroy := .ended forced, barrier := true }

def stepStart (job : JobId) : Option (State β ε ρ) :=
  if job ∈ s.active then none
  else some { s with active := job :: s.active, activeJobs := s.activeJobs + 1 }

def stepFinish (job : JobId) : Option (State β ε ρ) :=
  if job ∈ s.active then
    some { s with active := s.active.erase job, activeJobs := s.activeJobs - 1 }
  else none

/-- The tools are stopped once all consumers pause. -/
def stepPaused (resolved : Bool) : Option (State β ε ρ) :=
  match s.destroy with
  | .pausing =>
      if resolved then
        (Shutdown.stepShutdown s.fleet).map fun fleet => { s with fleet, destroy := .stopping }
      else some (finish s none)
  | _ => none

def stepStopped : Option (State β ε ρ) :=
  match s.destroy, s.fleet.call with
  | .stopping, .returned _ _ => some (drain s s.fleet.now)
  | _, _ => none

def stepWake : Option (State β ε ρ) :=
  match s.destroy with
  | .draining began wake => if wake ≤ s.fleet.now then some (drain s began) else none
  | _ => none

def stepClosed (resolved : Bool) : Option (State β ε ρ) :=
  match s.destroy with
  | .closing _ forced _ => some (finish s (if resolved then some forced else none))
  | _ => none

/-- The database is closed after its barrier, however that was resolved. -/
def stepDisconnect : Option (State β ε ρ) :=
  match s.prisma, s.barrier with
  | .waiting, true => some { s with prisma := .disconnected }
  | _, _ => none

def stepFleet : Shutdown.Event χ ε → Option (State β ε ρ)
  | .shutdown => none
  | event => (Shutdown.step runs s.fleet event).map fun fleet => { s with fleet }

def step : Event χ ε → Option (State β ε ρ)
  | .start job => stepStart s job
  | .finish job => stepFinish s job
  | .destroy =>
      match s.destroy with
      | .running => some { s with destroy := .pausing }
      | _ => none
  | .paused resolved => stepPaused s resolved
  | .stopped => stepStopped s
  | .wake => stepWake s
  | .closed resolved => stepClosed s resolved
  | .prismaDestroy =>
      match s.prisma with
      | .connected => some { s with prisma := .waiting }
      | _ => none
  | .disconnect => stepDisconnect s
  | .fleet event => stepFleet runs s event

end Steps

/-- A worker before its first job. -/
def machine [DecidableEq ι] (runs : (id : ι) → Run (β id) χ (ε id) (ρ id)) :
    Machine (State β ε ρ) (Event χ ε) where
  initial s := (Shutdown.machine runs).initial s.fleet ∧ s.active = [] ∧ s.activeJobs = 0 ∧
    s.destroy = .running ∧ s.barrier = false ∧ s.prisma = .connected
  step := step runs

/-- All consumers have paused. -/
def Destroy.paused : Destroy → Bool
  | .stopping | .draining _ _ | .closing _ _ _ | .ended (some _) => true
  | _ => false

/-- A paused consumer starts no job. -/
def Paused (s : State β ε ρ) : Event χ ε → Prop
  | .start _ => s.destroy.paused = false
  | _ => True

/-- The timer of the loop that waits for the jobs. -/
def clock : Clock (State β ε ρ) (Event χ ε) where
  set s now := { s with fleet := { s.fleet with now } }
  deadline s
    | .wake =>
        match s.destroy with
        | .draining _ wake => some wake
        | _ => none
    | _ => none

/-- No timer lags more than the event loop may, and no time passes before `onModuleDestroy` goes on
after the return of `shutdown`. -/
def Prompt [DecidableEq ι] (runs : (id : ι) → Run (β id) χ (ε id) (ρ id)) (lag patience : Time)
    (s : State β ε ρ) : Event χ ε → Prop
  | .fleet (.tick duration) =>
      Shutdown.InTime runs lag patience s.fleet (s.fleet.now + duration) ∧
        clock.Punctual (machine runs) lag s (s.fleet.now + duration) ∧
        (duration = 0 ∨ (machine runs).step s .stopped = none)
  | _ => True

variable {runs : (id : ι) → Run (β id) χ (ε id) (ρ id)} {s t : State β ε ρ} {event : Event χ ε}

section Fleet

variable [DecidableEq ι]

/-- Everything that an event can do in a worker, with what it finds there. -/
inductive Effect (runs : (id : ι) → Run (β id) χ (ε id) (ρ id)) (s : State β ε ρ) :
    Event χ ε → State β ε ρ → Prop
  | start {job : JobId} :
      Effect runs s (.start job)
        { s with active := job :: s.active, activeJobs := s.activeJobs + 1 }
  | finish {job : JobId} (running : job ∈ s.active) :
      Effect runs s (.finish job)
        { s with active := s.active.erase job, activeJobs := s.activeJobs - 1 }
  | destroy (running : s.destroy = .running) :
      Effect runs s .destroy { s with destroy := .pausing }
  | paused {fleet : Fleet β ε ρ} (pausing : s.destroy = .pausing)
      (stepped : Shutdown.step runs s.fleet .shutdown = some fleet) :
      Effect runs s (.paused true) { s with fleet, destroy := .stopping }
  | unpaused : Effect runs s (.paused false) (finish s none)
  | stopped {began ended : Time} (stopping : s.destroy = .stopping)
      (returned : s.fleet.call = .returned began ended) :
      Effect runs s .stopped (drain s s.fleet.now)
  | wake {began wake : Time} (draining : s.destroy = .draining began wake) :
      Effect runs s .wake (drain s began)
  | closed {resolved forced : Bool} {began since : Time}
      (closing : s.destroy = .closing began forced since) :
      Effect runs s (.closed resolved) (Consumers.finish s (if resolved then some forced else none))
  | prismaDestroy : Effect runs s .prismaDestroy { s with prisma := .waiting }
  | disconnect (free : s.barrier = true) :
      Effect runs s .disconnect { s with prisma := .disconnected }
  | fleet {inner : Shutdown.Event χ ε} {fleet : Fleet β ε ρ}
      (stepped : Shutdown.step runs s.fleet inner = some fleet) :
      Effect runs s (.fleet inner) { s with fleet }

/-- Every event does one of these. -/
theorem effect_of_step (taken : step runs s event = some t) : Effect runs s event t := by
  cases event with
  | start job =>
      simp only [step, stepStart] at taken
      split at taken <;> cases taken
      exact .start
  | finish job =>
      simp only [step, stepFinish] at taken
      split at taken <;> cases taken
      rename_i running
      exact .finish running
  | destroy =>
      simp only [step] at taken
      split at taken <;> cases taken
      rename_i running
      exact .destroy running
  | paused resolved =>
      simp only [step, stepPaused] at taken
      split at taken
      · rename_i pausing
        cases resolved
        · cases taken
          exact .unpaused
        · obtain ⟨fleet, stepped, rfl⟩ := Option.map_eq_some_iff.mp taken
          exact .paused pausing stepped
      · cases taken
  | stopped =>
      simp only [step, stepStopped] at taken
      split at taken <;> cases taken
      rename_i stopping returned
      exact .stopped stopping returned
  | wake =>
      simp only [step, stepWake] at taken
      split at taken
      · rename_i draining
        split at taken <;> cases taken
        exact .wake draining
      · cases taken
  | closed resolved =>
      simp only [step, stepClosed] at taken
      split at taken <;> cases taken
      rename_i closing
      exact .closed closing
  | prismaDestroy =>
      simp only [step] at taken
      split at taken <;> cases taken
      exact .prismaDestroy
  | disconnect =>
      simp only [step, stepDisconnect] at taken
      split at taken <;> cases taken
      rename_i free
      exact .disconnect free
  | fleet inner =>
      simp only [step, stepFleet] at taken
      split at taken
      · cases taken
      · obtain ⟨fleet, stepped, rfl⟩ := Option.map_eq_some_iff.mp taken
        exact .fleet stepped

/-- The fleet of a worker makes its own steps, and the consumers start its shutdown. -/
theorem fleet_of_step (taken : step runs s event = some t) :
    t.fleet = s.fleet ∨
      (∃ inner, event = .fleet inner ∧ Shutdown.step runs s.fleet inner = some t.fleet) ∨
      event = .paused true ∧ Shutdown.step runs s.fleet .shutdown = some t.fleet := by
  cases effect_of_step taken with
  | paused _ stepped => exact .inr (.inr ⟨rfl, stepped⟩)
  | fleet stepped => exact .inr (.inl ⟨_, rfl, stepped⟩)
  | start | finish | destroy | unpaused | stopped | wake | closed | prismaDestroy | disconnect =>
      exact .inl rfl

/-- The children of a worker behave as those of the shutdown service alone. -/
theorem fleet_of_reachable {guard : State β ε ρ → Event χ ε → Prop}
    {admits : Fleet β ε ρ → Shutdown.Event χ ε → Prop}
    (inner : ∀ s event, guard s (.fleet event) → admits s.fleet event)
    (stop : ∀ s, admits s .shutdown) (reached : (machine runs).Reachable guard s) :
    (Shutdown.machine runs).Reachable admits s.fleet := by
  apply reached.invariant
  · exact fun s initial => ⟨s.fleet, initial.1, .refl _⟩
  · intro s event t admitted taken before
    rcases fleet_of_step taken with same | ⟨event, rfl, stepped⟩ | ⟨_, stepped⟩
    · rw [same]
      exact before
    · exact before.extend (.single event (inner s event admitted) stepped)
    · exact before.extend (.single .shutdown (stop s.fleet) stepped)

end Fleet

/-- The service that stops the tools has returned. -/
def Stopped (s : State β ε ρ) : Prop := ∃ began ended, s.fleet.call = .returned began ended

/-- It had returned by this time. -/
def StoppedBy (s : State β ε ρ) (time : Time) : Prop :=
  ∃ began ended, s.fleet.call = .returned began ended ∧ ended ≤ time

theorem StoppedBy.stopped {time : Time} : StoppedBy s time → Stopped s
  | ⟨began, ended, returned, _⟩ => ⟨began, ended, returned⟩

/-- What the program point of `onModuleDestroy` tells. -/
def Reached (s : State β ε ρ) : Destroy → Prop
  | .running | .pausing | .stopping | .ended none => True
  | .draining began _ => StoppedBy s began ∧ began ≤ s.fleet.now
  | .closing began forced since => StoppedBy s began ∧ since ≤ s.fleet.now ∧
      (forced = true → began + drainMs ≤ since)
  | .ended (some _) => Stopped s

/-- The counter counts, and the barrier stands until `onModuleDestroy` has ended. -/
structure Sound (s : State β ε ρ) : Prop where
  counted : s.activeJobs = s.active.length
  barrier : s.barrier = true ↔ ∃ forced, s.destroy = .ended forced
  disconnected : s.prisma = .disconnected → s.barrier = true
  past : ∀ began ended, s.fleet.call = .returned began ended → ended ≤ s.fleet.now
  reached : Reached s s.destroy

/-- The tools stay stopped while time passes. -/
theorem Reached.later {destroy : Destroy} (reached : Reached s destroy)
    (now : s.fleet.now ≤ t.fleet.now)
    (stays : ∀ began ended, s.fleet.call = .returned began ended →
      t.fleet.call = .returned began ended) : Reached t destroy := by
  have stopped {time : Time} : StoppedBy s time → StoppedBy t time
    | ⟨began, ended, returned, before⟩ => ⟨began, ended, stays began ended returned, before⟩
  cases destroy with
  | running | pausing | stopping => trivial
  | draining began wake => exact ⟨stopped reached.1, Nat.le_trans reached.2 now⟩
  | closing began forced since =>
      exact ⟨stopped reached.1, Nat.le_trans reached.2.1 now, reached.2.2⟩
  | ended forced =>
      cases forced with
      | none => trivial
      | some forced =>
          obtain ⟨began, ended, returned⟩ := reached
          exact ⟨began, ended, stays began ended returned⟩

/-- Time does not go back, and the call returns once, at the present time. -/
structure Frame (event : Shutdown.Event χ ε) (fleet fleet' : Fleet β ε ρ) : Prop where
  now : fleet'.now = fleet.now ∨ ∃ duration, event = .tick duration ∧
    fleet'.now = fleet.now + duration
  stays : ∀ began ended, fleet.call = .returned began ended → fleet'.call = .returned began ended
  returns : ∀ began ended, fleet'.call = .returned began ended →
    fleet.call = .returned began ended ∨ ended = fleet'.now

theorem Frame.of_call {event : Shutdown.Event χ ε} {fleet fleet' : Fleet β ε ρ}
    (now : fleet'.now = fleet.now) (call : fleet'.call = fleet.call) : Frame event fleet fleet' :=
  ⟨.inl now, fun _ _ => call.trans, fun _ _ returned => .inl (call.symm.trans returned)⟩

theorem Frame.le {event : Shutdown.Event χ ε} {fleet fleet' : Fleet β ε ρ}
    (frame : Frame event fleet fleet') : fleet.now ≤ fleet'.now := by
  rcases frame.now with same | ⟨duration, _, later⟩
  · exact Nat.le_of_eq same.symm
  · exact later ▸ Nat.le_add_right _ _

theorem Frame.past {event : Shutdown.Event χ ε} {fleet fleet' : Fleet β ε ρ}
    (frame : Frame event fleet fleet')
    (past : ∀ began ended, fleet.call = .returned began ended → ended ≤ fleet.now) :
    ∀ began ended, fleet'.call = .returned began ended → ended ≤ fleet'.now := by
  intro began ended returned
  rcases frame.returns began ended returned with before | now
  · exact Nat.le_trans (past began ended before) frame.le
  · exact Nat.le_of_eq now

/-- The loop goes on while jobs run and time is left. -/
theorem reached_drain {began : Time} (stopped : StoppedBy s began) (past : began ≤ s.fleet.now) :
    Reached (drain s began) (drain s began).destroy := by
  simp only [drain]
  split
  · exact ⟨stopped, past⟩
  · rename_i left
    refine ⟨stopped, le_rfl, fun forced => ?_⟩
    simp only [decide_eq_true_eq] at forced
    by_contra early
    exact left ⟨forced, Nat.lt_of_not_le early⟩

theorem drain_not_ended {began : Time} (forced : Option Bool) :
    (drain s began).destroy ≠ .ended forced := by
  simp only [drain]
  split <;> simp

theorem Sound.drained (sound : Sound s) {began : Time} (stopped : StoppedBy s began)
    (past : began ≤ s.fleet.now) (running : ∀ forced, s.destroy ≠ .ended forced) :
    Sound (drain s began) where
  counted := sound.counted
  barrier := by
    constructor
    · intro resolved
      obtain ⟨forced, ended⟩ := sound.barrier.mp resolved
      exact absurd ended (running forced)
    · rintro ⟨forced, ended⟩
      exact absurd ended (drain_not_ended forced)
  disconnected := sound.disconnected
  past := sound.past
  reached := reached_drain stopped past

/-- The `finally` block resolves the barrier, and the end is the one of its branch. -/
theorem Sound.finish (sound : Sound s) {forced : Option Bool} (own : Reached s (.ended forced)) :
    Sound (finish s forced) where
  counted := sound.counted
  barrier := by simp [Consumers.finish]
  disconnected _ := rfl
  past := sound.past
  reached := own

section Steps

variable [DecidableEq ι]

theorem frame_step {event : Shutdown.Event χ ε} {fleet fleet' : Fleet β ε ρ}
    (taken : Shutdown.step runs fleet event = some fleet') : Frame event fleet fleet' := by
  cases event with
  | tick duration =>
      cases taken
      exact ⟨.inr ⟨duration, rfl, rfl⟩, fun _ _ returned => returned,
        fun _ _ returned => .inl returned⟩
  | child id event =>
      simp only [Shutdown.step, Shutdown.stepChild] at taken
      split at taken
      · cases taken
      obtain ⟨_, _, rfl⟩ := Option.map_eq_some_iff.mp taken
      exact .of_call rfl rfl
  | spawn | exit =>
      simp only [Shutdown.step, Shutdown.stepSpawn, Shutdown.stepExit] at taken
      split at taken <;> cases taken
      exact .of_call rfl rfl
  | shutdown =>
      simp only [Shutdown.step, Shutdown.stepShutdown] at taken
      split at taken
      · rename_i idle
        split at taken <;> cases taken
        · refine ⟨.inl rfl, fun _ _ returned => ?_, fun _ _ returned => ?_⟩
          · cases idle.symm.trans returned
          · cases returned
            exact .inr rfl
        · refine ⟨.inl rfl, fun _ _ returned => ?_, fun _ _ returned => ?_⟩
          · cases idle.symm.trans returned
          · cases returned
      · cases taken
  | resume =>
      simp only [Shutdown.step, Shutdown.stepResume] at taken
      split at taken
      · rename_i waiting
        split at taken <;> cases taken
        refine ⟨.inl rfl, fun _ _ returned => ?_, fun _ _ returned => ?_⟩
        · cases waiting.symm.trans returned
        · cases returned
          exact .inr rfl
      · cases taken

theorem sound_step (sound : Sound s) (taken : step runs s event = some t) : Sound t := by
  have reached := sound.reached
  cases effect_of_step taken with
  | start => exact { sound with counted := by simp [sound.counted] }
  | finish member =>
      exact { sound with counted := by rw [List.length_erase_of_mem member, sound.counted] }
  | destroy running =>
      exact { sound with
        barrier := by simpa [running] using sound.barrier
        reached := trivial }
  | paused pausing stepped =>
      exact
        { counted := sound.counted
          barrier := by simpa [pausing] using sound.barrier
          disconnected := sound.disconnected
          past := (frame_step stepped).past sound.past
          reached := trivial }
  | unpaused => exact sound.finish trivial
  | stopped stopping returned =>
      exact sound.drained ⟨_, _, returned, sound.past _ _ returned⟩ le_rfl (by simp [stopping])
  | wake draining =>
      rw [draining] at reached
      exact sound.drained reached.1 reached.2 (by simp [draining])
  | @closed resolved forced _ _ closing =>
      rw [closing] at reached
      apply sound.finish
      cases resolved
      · trivial
      · exact reached.1.stopped
  | prismaDestroy => exact { sound with disconnected := fun gone => by cases gone }
  | disconnect free => exact { sound with disconnected := fun _ => free }
  | fleet stepped =>
      have frame := frame_step stepped
      exact { sound with
        past := frame.past sound.past
        reached := reached.later frame.le frame.stays }

theorem sound_of_reachable {guard : State β ε ρ → Event χ ε → Prop}
    (reached : (machine runs).Reachable guard s) : Sound s := by
  apply reached.invariant
  · rintro s ⟨fleet, idle, none, running, closed, connected⟩
    exact
      { past := fun _ _ returned => by cases fleet.2.2.2.1.symm.trans returned
        counted := by rw [idle, none]; rfl
        barrier := by simp [closed, running]
        disconnected := fun gone => by cases connected.symm.trans gone
        reached := by
          rw [running]
          trivial }
  · exact fun s event t _ taken sound => sound_step sound taken

end Steps

/-- No job runs any more where `onModuleDestroy` has seen none. -/
def Drained (s : State β ε ρ) : Prop :=
  (∀ began since, s.destroy = .closing began false since → s.active = []) ∧
    (s.destroy = .ended (some false) → s.active = [])

theorem Drained.drain (sound : Sound s) (began : Time) : Drained (drain s began) := by
  refine ⟨fun began' since closing => ?_, fun ended => absurd ended (drain_not_ended _)⟩
  simp only [Consumers.drain] at closing
  split at closing
  · cases closing
  · simp only [Destroy.closing.injEq, decide_eq_false_iff_not] at closing
    apply List.length_eq_zero_iff.mp
    exact sound.counted.symm.trans (Nat.eq_zero_of_not_pos closing.2.1)

theorem Drained.kept (drained : Drained s) (destroy : t.destroy = s.destroy)
    (active : s.active = [] → t.active = []) : Drained t := by
  refine ⟨fun began since closing => ?_, fun ended => ?_⟩
  · exact active (drained.1 began since (destroy.symm.trans closing))
  · exact active (drained.2 (destroy.symm.trans ended))

section Drained

variable [DecidableEq ι]

theorem drained_step (sound : Sound s) (drained : Drained s) (paused : Paused s event)
    (taken : step runs s event = some t) : Drained t := by
  cases effect_of_step taken with
  | start =>
      refine ⟨fun began since closing => ?_, fun ended => ?_⟩
      · have resting : s.destroy.paused = true := by
          rw [show s.destroy = _ from closing]
          rfl
        cases resting.symm.trans paused
      · have resting : s.destroy.paused = true := by
          rw [show s.destroy = _ from ended]
          rfl
        cases resting.symm.trans paused
  | finish => exact drained.kept rfl fun none => by simp [none]
  | destroy | paused | unpaused =>
      exact ⟨fun _ _ closing => (by cases closing), fun ended => by cases ended⟩
  | stopped | wake => exact .drain sound _
  | @closed resolved forced _ _ closing =>
      refine ⟨fun _ _ closing => (by cases closing), fun ended => ?_⟩
      cases resolved
      · cases ended
      · cases ended
        exact drained.1 _ _ closing
  | prismaDestroy | disconnect | fleet => exact drained.kept rfl id

theorem drained_of_reachable (reached : (machine runs).Reachable Paused s) : Drained s := by
  apply reached.strengthen Sound fun _ => sound_of_reachable
  · rintro s ⟨_, idle, _⟩
    exact ⟨fun _ _ _ => idle, fun _ => idle⟩
  · exact fun s event t sound _ paused taken drained => drained_step sound drained paused taken

end Drained

/-- The stages of `onModuleDestroy` follow each other without more delay than the timers have. -/
structure Timely (lag : Time) (s : State β ε ρ) : Prop where
  stopping : s.destroy = .stopping → ∀ began ended, s.fleet.call = .returned began ended →
    s.fleet.now = ended
  draining : ∀ since wake, s.destroy = .draining since wake → ∀ began ended,
    s.fleet.call = .returned began ended →
      since = ended ∧ s.fleet.now ≤ wake + lag ∧ wake ≤ since + drainMs + pollMs
  closing : ∀ since forced closed, s.destroy = .closing since forced closed → ∀ began ended,
    s.fleet.call = .returned began ended →
      since = ended ∧ closed ≤ since + drainMs + pollMs + lag

theorem Timely.drain {lag since : Time}
    (start : ∀ began ended, s.fleet.call = .returned began ended → since = ended)
    (inTime : s.fleet.now ≤ since + drainMs + pollMs + lag) : Timely lag (drain s since) := by
  refine ⟨fun stopping => ?_, fun since' wake draining began ended returned => ?_,
    fun since' forced closed closing began ended returned => ?_⟩
  · simp only [Consumers.drain] at stopping
    split at stopping <;> cases stopping
  · simp only [Consumers.drain] at draining
    split at draining <;> cases draining
    rename_i left
    exact ⟨start began ended returned, Nat.le_add_right_of_le (Nat.le_add_right _ _),
      Nat.add_le_add_right (Nat.le_of_lt left.2) pollMs⟩
  · simp only [Consumers.drain] at closing
    split at closing <;> cases closing
    exact ⟨start began ended returned, inTime⟩

theorem Timely.kept {lag : Time} (timely : Timely lag s) (destroy : t.destroy = s.destroy)
    (fleet : t.fleet = s.fleet) : Timely lag t := by
  refine ⟨?_, ?_, ?_⟩ <;> rw [destroy, fleet]
  · exact timely.stopping
  · exact timely.draining
  · exact timely.closing

theorem timely_of_outside {lag : Time}
    (outside : ∀ since wake, s.destroy ≠ .stopping ∧ s.destroy ≠ .draining since wake ∧
      ∀ forced closed, s.destroy ≠ .closing since forced closed) : Timely lag s :=
  ⟨fun stopping => absurd stopping (outside 0 0).1,
    fun since wake draining => absurd draining (outside since wake).2.1,
    fun since forced closed closing => absurd closing ((outside since 0).2.2 forced closed)⟩

section Timely

variable [DecidableEq ι] {lag patience : Time}

/-- The loop wakes up. -/
theorem wake_of_punctual {later began wake : Time} (draining : s.destroy = .draining began wake)
    (punctual : clock.Punctual (machine runs) lag s later) : later ≤ wake + lag := by
  apply punctual .wake wake (by simp [clock, draining])
  simp [machine, step, stepWake, clock, draining]

theorem timely_fleet {inner : Shutdown.Event χ ε} (sound : Sound s) (timely : Timely lag s)
    (prompt : Prompt runs lag patience s (.fleet inner)) {fleet : Fleet β ε ρ}
    (taken : Shutdown.step runs s.fleet inner = some fleet) :
    Timely lag { s with fleet } := by
  have frame := frame_step taken
  have already (stopped : Stopped s) {began ended : Time}
      (returned : fleet.call = .returned began ended) : s.fleet.call = .returned began ended := by
    obtain ⟨began', ended', before⟩ := stopped
    have same := (frame.stays began' ended' before).symm.trans returned
    rw [before, same]
  have ticked (later : Time) (bound : ∀ duration, inner = .tick duration →
      s.fleet.now + duration ≤ later) (now : s.fleet.now ≤ later) : fleet.now ≤ later := by
    rcases frame.now with same | ⟨duration, ticking, after⟩
    · exact same ▸ now
    · exact after ▸ bound duration ticking
  have reached := sound.reached
  refine ⟨fun stopping began ended returned => ?_,
    fun since wake draining began ended returned => ?_,
    fun since forced closed closing began ended returned => ?_⟩
  · rcases frame.returns began ended returned with before | now
    · rcases frame.now with same | ⟨duration, rfl, after⟩
      · exact same.trans (timely.stopping stopping began ended before)
      · have none : duration = 0 := by
          refine prompt.2.2.resolve_right fun stuck => ?_
          simp [machine, step, stepStopped, show s.destroy = _ from stopping, before] at stuck
        rw [after, none]
        exact timely.stopping stopping began ended before
    · exact now.symm
  · rw [show s.destroy = _ from draining] at reached
    obtain ⟨start, now, bound⟩ :=
      timely.draining since wake draining began ended (already reached.1.stopped returned)
    refine ⟨start, ticked (wake + lag) (fun duration ticking => ?_) now, bound⟩
    subst ticking
    exact wake_of_punctual (s := s) draining prompt.2.1
  · rw [show s.destroy = _ from closing] at reached
    exact timely.closing since forced closed closing began ended
      (already reached.1.stopped returned)

theorem timely_step (sound : Sound s) (timely : Timely lag s)
    (prompt : Prompt runs lag patience s event) (taken : step runs s event = some t) :
    Timely lag t := by
  cases effect_of_step taken with
  | start | finish | prismaDestroy | disconnect => exact timely.kept rfl rfl
  | destroy => exact timely_of_outside fun since wake => by simp
  | unpaused | closed => exact timely_of_outside fun since wake => by simp [finish]
  | paused _ stepped =>
      refine ⟨fun _ began ended returned => ?_, fun _ _ draining => (by cases draining),
        fun _ _ _ closing => by cases closing⟩
      rcases (frame_step stepped).returns began ended returned with before | now
      · simp [Shutdown.step, Shutdown.stepShutdown, before] at stepped
      · exact now.symm
  | stopped stopping _ =>
      refine .drain (timely.stopping stopping) ?_
      exact Nat.le_add_right_of_le (Nat.le_add_right_of_le (Nat.le_add_right _ _))
  | @wake since wake draining =>
      have reached := sound.reached
      rw [draining] at reached
      obtain ⟨⟨began, ended, returned, _⟩, _⟩ := reached
      obtain ⟨_, now, bound⟩ := timely.draining since wake draining began ended returned
      exact .drain (fun began ended returned =>
        (timely.draining since wake draining began ended returned).1)
        (Nat.le_trans now (Nat.add_le_add_right bound lag))
  | fleet stepped => exact timely_fleet sound timely prompt stepped

theorem timely_of_reachable (reached : (machine runs).Reachable (Prompt runs lag patience) s) :
    Timely lag s := by
  apply reached.strengthen Sound fun _ => sound_of_reachable
  · rintro s ⟨_, _, _, running, _⟩
    exact timely_of_outside fun since wake => by simp [running]
  · exact fun s event t sound _ prompt taken timely => timely_step sound timely prompt taken

end Timely

/-- What the shutdown of a worker promises to its jobs, its tools and its database. -/
structure ConsumersLaw [DecidableEq ι] (runs : (id : ι) → Run (β id) χ (ε id) (ρ id)) : Prop where
  counted : ∀ s, (machine runs).Reachable Machine.anything s → s.activeJobs = s.active.length
  forced : ∀ s, (machine runs).Reachable Machine.anything s → ∀ began since,
    s.destroy = .closing began true since →
      StoppedBy s began ∧ began + drainMs ≤ since ∧ since ≤ s.fleet.now
  tools : ∀ s, (machine runs).Reachable Machine.anything s → Stopped s →
    ∀ id child, s.fleet.children id = some child → s.fleet.late id = false →
      child.tracked = false ∨ (∃ exit, s.fleet.exited id = some exit) ∨
        ∃ time, (id, .kill, time) ∈ s.fleet.sent
  released : ∀ s, (machine runs).Reachable Machine.anything s →
    (s.prisma = .disconnected → ∃ forced, s.destroy = .ended forced) ∧
      (s.prisma = .waiting → (((machine runs).step s .disconnect).isSome = true ↔
        ∃ forced, s.destroy = .ended forced))
  orphaned : ∀ s, (machine runs).Reachable Paused s → s.prisma = .disconnected → s.active ≠ [] →
    s.destroy = .ended none ∨ s.destroy = .ended (some true)
  timely : ∀ lag patience s, (machine runs).Reachable (Prompt runs lag patience) s →
    ∀ began ended, s.fleet.call = .returned began ended →
      (∀ since wake, s.destroy = .draining since wake →
        s.fleet.now ≤ began + Shutdown.graceMs + lag + drainMs + pollMs + lag) ∧
      ∀ since forced closed, s.destroy = .closing since forced closed →
        closed ≤ began + Shutdown.graceMs + lag + drainMs + pollMs + lag

/-- The database outlives the jobs unless they outlast their grace or the shutdown itself fails,
and it is closed in time however the shutdown ends. -/
theorem consumers_law [DecidableEq ι] (runs : (id : ι) → Run (β id) χ (ε id) (ρ id)) :
    ConsumersLaw runs where
  counted s reached := (sound_of_reachable reached).counted
  forced s reached began since closing := by
    have sound := (sound_of_reachable reached).reached
    rw [closing] at sound
    exact ⟨sound.1, sound.2.2 rfl, sound.2.1⟩
  tools s reached stopped id child present early := by
    have fleet : (Shutdown.machine runs).Reachable Machine.anything s.fleet :=
      fleet_of_reachable (fun _ _ _ => trivial) (fun _ => trivial) reached
    obtain ⟨began, ended, returned⟩ := stopped
    obtain ⟨_, _, _, _, gone⟩ :=
      (Shutdown.sound_of_reachable fleet).returned began ended returned
    rcases gone id child present early with untracked | ⟨exit, _, left⟩ | killed
    · exact .inl untracked
    · exact .inr (.inl ⟨exit, left⟩)
    · exact .inr (.inr ⟨ended, killed⟩)
  released s reached := by
    have sound := sound_of_reachable reached
    refine ⟨fun gone => sound.barrier.mp (sound.disconnected gone), fun waiting => ?_⟩
    rw [← sound.barrier]
    cases resolved : s.barrier <;> simp [machine, step, stepDisconnect, waiting, resolved]
  orphaned s reached gone working := by
    have sound := sound_of_reachable reached
    obtain ⟨forced, ended⟩ := sound.barrier.mp (sound.disconnected gone)
    cases forced with
    | none => exact .inl ended
    | some forced =>
        cases forced with
        | false => exact absurd ((drained_of_reachable reached).2 ended) working
        | true => exact .inr ended
  timely lag patience s reached began ended returned := by
    have fleet : (Shutdown.machine runs).Reachable (Shutdown.Prompt runs lag patience) s.fleet := by
      refine fleet_of_reachable (fun s event prompt => ?_) (fun _ => trivial) reached
      cases event with
      | tick duration => exact prompt.1
      | _ => trivial
    have bound := (Shutdown.timely_of_reachable fleet).returned began ended returned
    have later : ended + drainMs + pollMs + lag ≤
        began + Shutdown.graceMs + lag + drainMs + pollMs + lag :=
      Nat.add_le_add_right (Nat.add_le_add_right (Nat.add_le_add_right bound drainMs) pollMs) lag
    have timely := timely_of_reachable reached
    constructor
    · intro since wake draining
      obtain ⟨rfl, now, wakes⟩ := timely.draining since wake draining began ended returned
      exact Nat.le_trans now (Nat.le_trans (Nat.add_le_add_right wakes lag) later)
    · intro since forced closed closing
      obtain ⟨rfl, inTime⟩ := timely.closing since forced closed closing began ended returned
      exact Nat.le_trans inTime later

/-- The worker of the witness has these tools. -/
abbrev ToolState := State Shutdown.ToolRun.Output Shutdown.ToolRun.Failure Shutdown.ToolRun.Result

/-- A job outlasts the shutdown, and the database is closed under it. -/
theorem consumers_law_orphan : ∃ s t : ToolState,
    (machine (χ := Bytes) Shutdown.ToolRun.run).Reachable
      (Prompt Shutdown.ToolRun.run 5000 0) s ∧
    s.fleet.call = .returned 0 0 ∧ s.destroy = .closing 0 true 5000 ∧
    5000 ≤ 0 + Shutdown.graceMs + 5000 + drainMs + pollMs + 5000 ∧
    (machine (χ := Bytes) Shutdown.ToolRun.run).Reachable Paused t ∧
    t.prisma = .disconnected ∧ t.active = [0] ∧
    (t.destroy = .ended none ∨ t.destroy = .ended (some true)) := by
  let fleet : Fleet Shutdown.ToolRun.Output Shutdown.ToolRun.Failure Shutdown.ToolRun.Result :=
    ⟨0, fun _ => none, fun _ => 0, fun _ => none, fun _ => false, [], .idle, []⟩
  let start : ToolState := ⟨fleet, [], 0, .running, false, .connected⟩
  let stopped := { fleet with call := .returned 0 0 }
  let draining : ToolState := ⟨stopped, [0], 1, .draining 0 25, false, .connected⟩
  let closing : ToolState := ⟨{ stopped with now := 5000 }, [0], 1, .closing 0 true 5000, false,
    .connected⟩
  let both (s : ToolState) (event : Event Bytes Shutdown.ToolRun.Failure) : Prop :=
    Paused s event ∧ Prompt Shutdown.ToolRun.run 5000 0 s event
  have initial : (machine (χ := Bytes) Shutdown.ToolRun.run).initial start :=
    ⟨⟨fun _ => rfl, fun _ => rfl, rfl, rfl, rfl, fun _ => rfl⟩, rfl, rfl, rfl, rfl, rfl⟩
  have drains : (machine (χ := Bytes) Shutdown.ToolRun.run).Path both start draining :=
    ((((Machine.Path.refl start).snoc (.start 0) ⟨rfl, trivial⟩ rfl).snoc .destroy
      ⟨trivial, trivial⟩ rfl).snoc (.paused true) ⟨trivial, trivial⟩ rfl).snoc .stopped
      ⟨trivial, trivial⟩ rfl
  have waits : Prompt Shutdown.ToolRun.run 5000 0 draining
      (.fleet (.tick 5000) : Event Bytes Shutdown.ToolRun.Failure) := by
    refine ⟨⟨fun event deadline armed _ => ?_, fun id child present => ?_,
      fun id child present => ?_⟩, fun event deadline armed _ => ?_, .inr rfl⟩
    · cases event with
      | child id event => cases event <;> cases armed
      | _ => cases armed
    · cases present
    · cases present
    · cases event with
      | wake =>
          cases armed
          decide
      | _ => cases armed
  let overdue : ToolState := { draining with fleet := { stopped with now := 5000 } }
  have waited : (machine (χ := Bytes) Shutdown.ToolRun.run).Path both draining overdue :=
    .single (.fleet (.tick 5000)) ⟨trivial, waits⟩ rfl
  have woken : (machine (χ := Bytes) Shutdown.ToolRun.run).step overdue .wake = some closing := by
    simp [machine, step, stepWake, Consumers.drain, drainMs, overdue, draining, closing]
  have closes : (machine (χ := Bytes) Shutdown.ToolRun.run).Path both start closing :=
    (drains.trans waited).snoc .wake ⟨trivial, trivial⟩ woken
  let orphan : ToolState :=
    { closing with destroy := .ended (some true), barrier := true, prisma := .disconnected }
  have ends : (machine (χ := Bytes) Shutdown.ToolRun.run).Path both closing orphan :=
    (((Machine.Path.refl closing).snoc (.closed true) ⟨trivial, trivial⟩ rfl).snoc .prismaDestroy
      ⟨trivial, trivial⟩ rfl).snoc .disconnect ⟨trivial, trivial⟩ rfl
  have law := consumers_law (χ := Bytes) Shutdown.ToolRun.run
  have prompt : (machine (χ := Bytes) Shutdown.ToolRun.run).Reachable
      (Prompt Shutdown.ToolRun.run 5000 0) closing :=
    ⟨start, initial, closes.mono fun _ _ => And.right⟩
  have paused : (machine (χ := Bytes) Shutdown.ToolRun.run).Reachable Paused orphan :=
    ⟨start, initial, (closes.trans ends).mono fun _ _ => And.left⟩
  exact ⟨closing, orphan, prompt, rfl, rfl,
    (law.timely 5000 0 closing prompt 0 0 rfl).2 0 true 5000 rfl, paused, rfl, rfl,
    law.orphaned orphan paused rfl (List.cons_ne_nil 0 [])⟩

end PostsMedia.Consumers
