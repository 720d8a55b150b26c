import Mathlib.Data.List.MinMax
import PostsMedia.Library.Clock
import PostsMedia.Processing.Heartbeat
import PostsMedia.Queues.Dispatch

namespace PostsMedia.WorkerHealth

open WorkerHeartbeat (Settings WorkerInstance Work Status)

inductive Freshness
  | missing | fresh | stale
  deriving DecidableEq

def classifyWorkerHeartbeat (heartbeatAt : Option ℕ) (now : ℕ) (staleAfterSeconds : ℕ) :
    Freshness :=
  match heartbeatAt with
  | none => .missing
  | some heartbeatAt =>
      if (now : ℤ) - (heartbeatAt : ℤ) ≤ (staleAfterSeconds * 1000 : ℕ) then .fresh else .stale

structure WorkerDiagnostics where
  id : String
  status : Status
  redisConnected : Bool
  storageConnected : Bool
  dispatcherActive : Bool
  consumersActive : Bool
  activeJobCount : ℕ
  lastHeartbeatAt : ℕ
  freshness : Freshness

structure Diagnostics where
  pending : ℕ
  retryWait : ℕ
  dead : ℕ
  worker : Option WorkerDiagnostics

/-- A row of the worker table with its key. -/
abbrev InstanceRow := String × WorkerInstance

/-- `SystemController.diagnostics`. The latest heartbeat of any worker is shown. -/
def diagnostics (dispatches : List ProcessingDispatch) (instances : List InstanceRow) (now : ℕ)
    (heartbeatStaleSeconds : ℕ) : Diagnostics where
  pending := dispatches.countP fun dispatch => dispatch.status = .pending
  retryWait := dispatches.countP fun dispatch => dispatch.status = .retryWait
  dead := dispatches.countP fun dispatch => dispatch.status = .dead
  worker := (instances.argmax fun row => row.2.lastHeartbeatAt).map fun row =>
    { id := row.1
      status := row.2.status
      redisConnected := row.2.redisConnected
      storageConnected := row.2.storageConnected
      dispatcherActive := row.2.dispatcherActive
      consumersActive := row.2.consumersActive
      activeJobCount := row.2.activeJobCount
      lastHeartbeatAt := row.2.lastHeartbeatAt
      freshness :=
        classifyWorkerHeartbeat (some row.2.lastHeartbeatAt) now heartbeatStaleSeconds }

theorem classify_fresh_iff {heartbeatAt now : ℕ} {staleAfterSeconds : ℕ} :
    classifyWorkerHeartbeat (some heartbeatAt) now staleAfterSeconds = .fresh ↔
      now ≤ heartbeatAt + staleAfterSeconds * 1000 := by
  simp only [classifyWorkerHeartbeat]
  split
  · rename_i young
    exact ⟨fun _ => by omega, fun _ => rfl⟩
  · rename_i old
    refine ⟨(fun fresh => by cases fresh), fun young => absurd ?_ old⟩
    omega

/-- One fresh heartbeat is enough, whatever the other workers have written. -/
theorem diagnostics_fresh {instances : List InstanceRow} {row : InstanceRow} {now : ℕ}
    {heartbeatStaleSeconds : ℕ} (dispatches : List ProcessingDispatch) (member : row ∈ instances)
    (young : now ≤ row.2.lastHeartbeatAt + heartbeatStaleSeconds * 1000) :
    (diagnostics dispatches instances now heartbeatStaleSeconds).worker.map (·.freshness) =
      some .fresh := by
  cases latest : instances.argmax fun row => row.2.lastHeartbeatAt with
  | none =>
      rw [List.argmax_eq_none] at latest
      rw [latest] at member
      cases member
  | some first =>
      have later : row.2.lastHeartbeatAt ≤ first.2.lastHeartbeatAt :=
        List.le_of_mem_argmax (f := fun row : InstanceRow => row.2.lastHeartbeatAt) member latest
      simp only [diagnostics, latest, Option.map_some]
      rw [classify_fresh_iff.mpr]
      exact Nat.le_trans young (Nat.add_le_add_right later _)

/-- The service under a clock. The timer is due at a time of its own, and the latest run and its
statement have theirs. -/
structure Monitor where
  service : WorkerHeartbeat.State
  now : ℕ
  due : ℕ
  bootAt : ℕ
  startedAt : ℕ
  probedAt : ℕ

inductive Event
  | service (event : WorkerHeartbeat.Event)
  | wait (duration : ℕ)

/-- The deadline of both probes. -/
def probeTimeoutMs : ℕ := 3000

/-- The event may happen now, with the times that it reads. -/
def allowed (m : Monitor) : WorkerHeartbeat.Event → Bool
  | .tick => m.due ≤ m.now
  | .deadline .. => m.startedAt + probeTimeoutMs ≤ m.now
  | .probed _ _ _ time | .upsertApplies _ time | .beatAwaited _ time => time = m.now
  | _ => true

/-- A new run has started. -/
def starts (before after : WorkerHeartbeat.State) : Bool :=
  before.activeBeat.current.isNone && after.activeBeat.current.isSome

/-- The times after an event of the service. -/
def Monitor.follow (m : Monitor) (intervalMs : ℕ) (event : WorkerHeartbeat.Event)
    (service : WorkerHeartbeat.State) : Monitor :=
  let started := { m with
    service
    startedAt := if starts m.service service then m.now else m.startedAt }
  match event with
  | .onModuleInit => { started with due := m.now + intervalMs, bootAt := m.now }
  | .tick => { started with due := m.now + intervalMs }
  | .probed .. => { started with probedAt := m.now }
  | _ => started

/-- The interval that the timer keeps. -/
def interval (heartbeatIntervalSeconds : ℕ) : ℕ := timerDelay (heartbeatIntervalSeconds * 1000)

theorem interval_le {heartbeatIntervalSeconds : ℕ} (positive : 1 ≤ heartbeatIntervalSeconds) :
    interval heartbeatIntervalSeconds ≤ heartbeatIntervalSeconds * 1000 := by
  unfold interval timerDelay
  split <;> omega

def step (settings : Settings) (heartbeatIntervalSeconds : ℕ) (m : Monitor) :
    Event → Option Monitor
  | .wait duration => some { m with now := m.now + duration }
  | .service event =>
      if allowed m event then
        (WorkerHeartbeat.step settings m.service event).map
          (m.follow (interval heartbeatIntervalSeconds) event)
      else none

def machine (settings : Settings) (heartbeatIntervalSeconds : ℕ) : Machine Monitor Event where
  initial m := WorkerHeartbeat.initial m.service
  step := step settings heartbeatIntervalSeconds

/-- How late a timer is at most, and how long a statement takes. -/
structure Pace where
  patience : ℕ
  delay : ℕ

/-- How long a run waits for its probes. -/
def Pace.answer (pace : Pace) : ℕ := probeTimeoutMs + pace.patience

/-- The interval and the deadlines of the probes. -/
def clock : Clock Monitor Event where
  set m now := { m with now }
  deadline m
    | .service .tick => some m.due
    | .service (.deadline _ _) => some (m.startedAt + probeTimeoutMs)
    | _ => none

/-- The callback of a promise, which no timer and no dependency holds back. -/
def isMicrotask : WorkerHeartbeat.Event → Bool
  | .probeFinally _ _ | .raceSettles _ _ | .probed .. | .beatFinally _ | .callSettles _ => true
  | _ => false

/-- No callback of a promise is left. -/
def Still (settings : Settings) (m : Monitor) : Prop :=
  ∀ event, isMicrotask event = true → WorkerHeartbeat.step settings m.service event = none

/-- Timers are late by no more than the patience, callbacks of promises take no time, the statements
are quick and succeed, and only the service itself calls `beat`. -/
def Prompt (settings : Settings) (heartbeatIntervalSeconds : ℕ) (pace : Pace) (m : Monitor) :
    Event → Prop
  | .wait duration =>
      clock.Punctual (machine settings heartbeatIntervalSeconds) pace.patience m
          (m.now + duration) ∧
        (duration = 0 ∨ Still settings m) ∧
        ∀ heartbeat applied,
          m.service.activeBeat.kept = some (.pending (.upserting heartbeat applied)) →
            m.now + duration ≤ m.probedAt + pace.delay
  | .service .beat => m.service.timer = true
  | .service (.upsertSettles _ resolved) => resolved = true
  | .service _ => True

/-- The latest heartbeat in the row, or the start of the service before the first one. -/
def Monitor.last (m : Monitor) : ℕ :=
  (m.service.row.map (·.lastHeartbeatAt)).getD m.bootAt

/-- The longest time between the end of one run and the start of the next. -/
def Pace.pause (pace : Pace) (intervalMs : ℕ) : ℕ :=
  intervalMs + pace.patience + pace.delay

/-- Where the service is between two heartbeats: it waits for its timer, a run waits for its probes,
a run writes its heartbeat, or a run has written it. -/
inductive OnTime (pace : Pace) (intervalMs : ℕ) (m : Monitor) : Prop
  | resting (kept : m.service.activeBeat.kept = none) (row : m.service.row.isSome = true)
      (due : m.due ≤ m.last + pace.delay + intervalMs)
  | probing (races : WorkerHeartbeat.Dependency → WorkerHeartbeat.Race)
      (kept : m.service.activeBeat.kept = some (.pending (.probing races)))
      (started : m.startedAt ≤ m.last + pace.pause intervalMs)
      (inTime : m.now ≤ m.startedAt + pace.answer)
  | upserting (heartbeat : WorkerHeartbeat.Heartbeat)
      (kept : m.service.activeBeat.kept = some (.pending (.upserting heartbeat false)))
      (time : heartbeat.time = m.probedAt) (past : m.probedAt ≤ m.now)
      (probed : m.probedAt ≤ m.last + pace.pause intervalMs + pace.answer)
      (inTime : m.now ≤ m.probedAt + pace.delay)
  | upserted (flight : Flight Work Bool) (kept : m.service.activeBeat.kept = some flight)
      (done : (∃ heartbeat, flight = .pending (.upserting heartbeat true)) ∨ flight = .settled true)
      (row : m.service.row.isSome = true) (probed : m.probedAt ≤ m.last)
      (inTime : m.now ≤ m.probedAt + pace.delay)

structure Sound (pace : Pace) (intervalMs : ℕ) (m : Monitor) : Prop where
  service : WorkerHeartbeat.Invariant m.service
  off : m.service.started = false →
    m.service.timer = false ∧ m.service.activeBeat = .empty ∧ m.service.row = none
  timer : m.service.timer = true → m.now ≤ m.due + pace.patience ∧ m.due ≤ m.now + intervalMs
  onTime : m.service.timer = true → OnTime pace intervalMs m

section Frames

variable {pace : Pace} {intervalMs : ℕ} {m : Monitor} {service : WorkerHeartbeat.State}
variable {event : WorkerHeartbeat.Event}

theorem OnTime.same (onTime : OnTime pace intervalMs m)
    (kept : service.activeBeat.kept = m.service.activeBeat.kept)
    (row : service.row.map (·.lastHeartbeatAt) = m.service.row.map (·.lastHeartbeatAt)) :
    OnTime pace intervalMs { m with service } := by
  have last : ({ m with service } : Monitor).last = m.last := by
    simp only [Monitor.last, row]
  have present : service.row.isSome = m.service.row.isSome := by
    rw [← Option.isSome_map, row, Option.isSome_map]
  cases onTime with
  | resting rests row due =>
      exact .resting (kept.trans rests) (present.trans row) (by rw [last]; exact due)
  | probing races probes started inTime =>
      exact .probing races (kept.trans probes) (by rw [last]; exact started) inTime
  | upserting heartbeat upserts time past probed inTime =>
      exact .upserting heartbeat (kept.trans upserts) time past (by rw [last]; exact probed) inTime
  | upserted flight holds done row probed inTime =>
      exact .upserted flight (kept.trans holds) done (present.trans row)
        (by rw [last]; exact probed) inTime

/-- What does not touch the runs, the row and the timer keeps the times. -/
theorem Sound.same (sound : Sound pace intervalMs m)
    (invariant : WorkerHeartbeat.Invariant service)
    (started : service.started = m.service.started) (timer : service.timer = m.service.timer)
    (activeBeat : service.activeBeat = m.service.activeBeat)
    (row : service.row.map (·.lastHeartbeatAt) = m.service.row.map (·.lastHeartbeatAt)) :
    Sound pace intervalMs { m with service } where
  service := invariant
  off fresh := by
    obtain ⟨still, empty, absent⟩ := sound.off (started.symm.trans fresh)
    refine ⟨timer.trans still, activeBeat.trans empty, ?_⟩
    rw [absent] at row
    exact Option.map_eq_none_iff.mp row
  timer on := sound.timer (timer.symm.trans on)
  onTime on := (sound.onTime (timer.symm.trans on)).same (congrArg _ activeBeat) row

theorem not_starts (same : service.activeBeat.current = m.service.activeBeat.current) :
    starts m.service service = false := by
  unfold starts
  rw [same]
  cases m.service.activeBeat.current <;> rfl

/-- The run that is kept goes on. -/
theorem Sound.advance (sound : Sound pace intervalMs m)
    (invariant : WorkerHeartbeat.Invariant service)
    (started : service.started = m.service.started) (timer : service.timer = m.service.timer)
    {run : ℕ} {before after : Flight Work Bool}
    (held : m.service.activeBeat.flights[run]? = some before) (lived : before.live = true)
    (activeBeat : service.activeBeat =
      { m.service.activeBeat with flights := m.service.activeBeat.flights.set run after })
    (probedAt : ℕ)
    (onTime : m.service.timer = true → m.service.activeBeat.kept = some before →
      service.activeBeat.kept = some after → OnTime pace intervalMs { m with service, probedAt }) :
    Sound pace intervalMs { m with service, probedAt } where
  service := invariant
  off fresh := by
    obtain ⟨_, empty, _⟩ := sound.off (started.symm.trans fresh)
    rw [empty] at held
    cases held
  timer on := sound.timer (timer.symm.trans on)
  onTime on := by
    refine onTime (timer.symm.trans on) (sound.service.activeBeat.kept held lived) ?_
    rw [activeBeat]
    exact sound.service.activeBeat.kept_set held lived

end Frames

section Runs

variable {pace : Pace} {intervalMs : ℕ} {m : Monitor} {service : WorkerHeartbeat.State}

/-- The timer matters only while no run is kept. -/
theorem OnTime.rearm (onTime : OnTime pace intervalMs m)
    (busy : m.service.activeBeat.kept ≠ none) (due : ℕ) :
    OnTime pace intervalMs { m with due } := by
  cases onTime with
  | resting rests => exact absurd rests busy
  | probing races probes started inTime => exact .probing races probes started inTime
  | upserting heartbeat upserts time past probed inTime =>
      exact .upserting heartbeat upserts time past probed inTime
  | upserted flight holds done row probed inTime =>
      exact .upserted flight holds done row probed inTime

/-- A call of `beat` while the timer runs joins the kept run or starts one in time. -/
theorem sound_beat (sound : Sound pace intervalMs m)
    (invariant : WorkerHeartbeat.Invariant m.service.beat) (on : m.service.timer = true) (due : ℕ)
    (next : m.now ≤ due + pace.patience ∧ due ≤ m.now + intervalMs) :
    Sound pace intervalMs { m with
      service := m.service.beat
      startedAt := if starts m.service m.service.beat then m.now else m.startedAt
      due } := by
  have running : m.service.stopping = false := sound.service.timer on
  have begun : m.service.started = true := by
    by_contra fresh
    rw [(sound.off (Bool.eq_false_iff.mpr fresh)).1] at on
    cases on
  cases current : m.service.activeBeat.current with
  | some run =>
      have same : m.service.beat =
          { m.service with calls := m.service.calls ++ [.waiting run] } := by
        simp only [WorkerHeartbeat.State.beat, running, Bool.false_eq_true, if_false, current]
      have quiet : starts m.service m.service.beat = false := by
        rw [same]
        exact not_starts rfl
      obtain ⟨flight, busy⟩ := sound.service.activeBeat.kept_of_current current
      rw [same] at invariant
      have kept : Sound pace intervalMs { m with due } :=
        { service := sound.service
          off := sound.off
          timer := fun _ => next
          onTime := fun on => (sound.onTime on).rearm (by simp [busy]) due }
      simp only [quiet, Bool.false_eq_true, if_false]
      rw [same]
      exact kept.same invariant rfl rfl rfl rfl
  | none =>
      have same : m.service.beat =
          { m.service with
            activeBeat := m.service.activeBeat.join m.service.performBeat
            probes := fun dependency => (m.service.probes dependency).join ()
            calls := m.service.calls ++ [.waiting m.service.activeBeat.target] } := by
        simp only [WorkerHeartbeat.State.beat, running, Bool.false_eq_true, if_false, current]
      have joined := m.service.activeBeat.kept_join_none m.service.performBeat current
      have started : starts m.service m.service.beat = true := by
        simp [starts, current, same, Memo.join]
      have rests : m.service.activeBeat.kept = none := by rw [Memo.kept, current]; rfl
      rw [same] at invariant
      rw [started, if_pos rfl, same]
      exact
        { service := invariant
          off := fun fresh => by
            rw [show m.service.started = false from fresh] at begun
            cases begun
          timer := fun _ => next
          onTime := fun _ => by
            have late := (sound.timer on).1
            refine .probing m.service.probeDependency joined ?_ (Nat.le_add_right ..)
            cases sound.onTime on with
            | resting rests row due' =>
                show m.now ≤ m.last + (intervalMs + pace.patience + pace.delay)
                omega
            | probing races probes => rw [rests] at probes; cases probes
            | upserting heartbeat upserts => rw [rests] at upserts; cases upserts
            | upserted flight holds => rw [rests] at holds; cases holds }

variable {settings : Settings}

/-- The service starts with a run of its own. -/
theorem sound_onModuleInit (sound : Sound pace intervalMs m)
    (taken : WorkerHeartbeat.step settings m.service .onModuleInit = some service) :
    Sound pace intervalMs (m.follow intervalMs .onModuleInit service) := by
  have invariant := WorkerHeartbeat.effect_invariant sound.service
    (WorkerHeartbeat.step_effect taken)
  simp only [WorkerHeartbeat.step] at taken
  split_ifs at taken with once
  all_goals
    have fresh : m.service.started = false := by
      cases started : m.service.started
      · rfl
      · simp [started] at once
    obtain ⟨still, empty, absent⟩ := sound.off fresh
  · cases taken
    refine ⟨sound.service, sound.off, fun on => ?_, fun on => ?_⟩
    all_goals
      rw [show m.service.timer = true from on] at still
      cases still
  · have running : m.service.stopping = false := by
      cases stopping : m.service.stopping
      · rfl
      · simp [stopping] at once
    have free : m.service.activeBeat.current = none := by rw [empty]; rfl
    have same : ({ m.service with started := true } : WorkerHeartbeat.State).beat =
        { m.service with
          started := true
          activeBeat := m.service.activeBeat.join m.service.performBeat
          probes := fun dependency => (m.service.probes dependency).join ()
          calls := m.service.calls ++ [.waiting m.service.activeBeat.target] } := by
      simp only [WorkerHeartbeat.State.beat, running, Bool.false_eq_true, if_false, free]
      rfl
    rw [same] at taken
    cases taken
    have joined := m.service.activeBeat.kept_join_none m.service.performBeat free
    refine ⟨invariant, (fun fresh => by cases fresh), fun _ => ?_, fun _ => ?_⟩
    · simp only [Monitor.follow]
      omega
    · refine .probing m.service.probeDependency joined ?_ ?_
      · simp [Monitor.follow, Monitor.last, absent, starts, free, Memo.join]
      · simp [Monitor.follow, starts, free, Memo.join]

/-- One race of the kept run has its answer. -/
theorem sound_answer (sound : Sound pace intervalMs m) {run : ℕ}
    {races : WorkerHeartbeat.Dependency → WorkerHeartbeat.Race}
    {dependency : WorkerHeartbeat.Dependency} {connected : Bool}
    (invariant : WorkerHeartbeat.Invariant (m.service.answer run races dependency connected))
    (held : m.service.activeBeat.flights[run]? = some (.pending (.probing races))) :
    Sound pace intervalMs
      { m with service := m.service.answer run races dependency connected } := by
  refine sound.advance invariant rfl rfl held rfl rfl m.probedAt fun on kept after => ?_
  cases sound.onTime on with
  | resting rests => rw [rests] at kept; cases kept
  | probing races probes started inTime => exact .probing _ after started inTime
  | upserting heartbeat upserts => rw [upserts] at kept; cases kept
  | upserted flight holds done =>
      rw [holds] at kept
      cases kept
      rcases done with ⟨heartbeat, same⟩ | same <;> cases same

theorem sound_probed (sound : Sound pace intervalMs m) {run activeJobCount time : ℕ}
    {consumersActive : Bool} (now : time = m.now)
    (taken : WorkerHeartbeat.step settings m.service
      (.probed run consumersActive activeJobCount time) = some service) :
    Sound pace intervalMs
      (m.follow intervalMs (.probed run consumersActive activeJobCount time) service) := by
  have invariant := WorkerHeartbeat.effect_invariant sound.service
    (WorkerHeartbeat.step_effect taken)
  simp only [WorkerHeartbeat.step] at taken
  split at taken
  · rename_i races held
    split at taken
    · rename_i redisConnected storageConnected _ _
      cases taken
      have quiet : starts m.service { m.service with
          activeBeat := m.service.activeBeat.advance run (.upserting
            ⟨redisConnected, storageConnected, consumersActive, activeJobCount, time⟩ false)
          issued := m.service.issued ++ [.upsert
            ⟨redisConnected, storageConnected, consumersActive, activeJobCount, time⟩] } = false :=
        not_starts rfl
      simp only [Monitor.follow, quiet, Bool.false_eq_true, if_false]
      refine sound.advance invariant rfl rfl held rfl rfl m.now fun on kept after => ?_
      cases sound.onTime on with
      | resting rests => rw [rests] at kept; cases kept
      | probing races probes started inTime =>
          refine .upserting _ after now (Nat.le_refl _) ?_ (Nat.le_add_right ..)
          exact Nat.le_trans inTime (Nat.add_le_add_right started _)
      | upserting heartbeat upserts => rw [upserts] at kept; cases kept
      | upserted flight holds done =>
          rw [holds] at kept
          cases kept
          rcases done with ⟨heartbeat, same⟩ | same <;> cases same
    · cases taken
  · cases taken

/-- The heartbeat that a run writes is its own time, or the time of the database in a new row. -/
theorem le_upsert {heartbeat : WorkerHeartbeat.Heartbeat} {now : ℕ} (past : heartbeat.time ≤ now)
    (row : Option WorkerInstance) :
    heartbeat.time ≤ (WorkerHeartbeat.upsert settings heartbeat now row).lastHeartbeatAt := by
  cases row with
  | none => exact past
  | some row => exact Nat.le_refl _

theorem sound_upsertApplies (sound : Sound pace intervalMs m) {run now : ℕ}
    (present : now = m.now)
    (taken : WorkerHeartbeat.step settings m.service (.upsertApplies run now) = some service) :
    Sound pace intervalMs (m.follow intervalMs (.upsertApplies run now) service) := by
  have invariant := WorkerHeartbeat.effect_invariant sound.service
    (WorkerHeartbeat.step_effect taken)
  simp only [WorkerHeartbeat.step] at taken
  split at taken
  · rename_i heartbeat held
    cases taken
    have quiet : starts m.service { m.service with
        activeBeat := m.service.activeBeat.advance run (.upserting heartbeat true)
        row := some (WorkerHeartbeat.upsert settings heartbeat now m.service.row) } = false :=
      not_starts rfl
    simp only [Monitor.follow, quiet, Bool.false_eq_true, if_false]
    refine sound.advance invariant rfl rfl held rfl rfl m.probedAt fun on kept after => ?_
    cases sound.onTime on with
    | resting rests => rw [rests] at kept; cases kept
    | probing races probes => rw [probes] at kept; cases kept
    | upserting heartbeat' upserts time past probed inTime =>
        rw [upserts] at kept
        cases kept
        refine .upserted _ after (.inl ⟨heartbeat, rfl⟩) rfl ?_ inTime
        rw [← time]
        exact le_upsert (by rw [time, present]; exact past) m.service.row
    | upserted flight holds done =>
        rw [holds] at kept
        cases kept
        rcases done with ⟨heartbeat, same⟩ | same <;> cases same
  · cases taken

theorem sound_upsertSettles (sound : Sound pace intervalMs m) {run : ℕ}
    (taken : WorkerHeartbeat.step settings m.service (.upsertSettles run true) = some service) :
    Sound pace intervalMs (m.follow intervalMs (.upsertSettles run true) service) := by
  have invariant := WorkerHeartbeat.effect_invariant sound.service
    (WorkerHeartbeat.step_effect taken)
  simp only [WorkerHeartbeat.step] at taken
  split at taken
  · rename_i heartbeat applied held
    split_ifs at taken with unapplied
    cases taken
    have quiet : starts m.service
        { m.service with activeBeat := m.service.activeBeat.settle run true } = false :=
      not_starts rfl
    simp only [Monitor.follow, quiet, Bool.false_eq_true, if_false]
    refine sound.advance invariant rfl rfl held rfl rfl m.probedAt fun on kept after => ?_
    cases sound.onTime on with
    | resting rests => rw [rests] at kept; cases kept
    | probing races probes => rw [probes] at kept; cases kept
    | upserting heartbeat' upserts =>
        rw [upserts] at kept
        cases kept
        simp at unapplied
    | upserted flight holds done row probed inTime =>
        exact .upserted _ after (.inr rfl) row probed inTime
  · cases taken

/-- After a run the timer has an interval at most to go. -/
theorem sound_beatFinally (sound : Sound pace intervalMs m) {run : ℕ}
    (taken : WorkerHeartbeat.step settings m.service (.beatFinally run) = some service) :
    Sound pace intervalMs (m.follow intervalMs (.beatFinally run) service) := by
  have invariant := WorkerHeartbeat.effect_invariant sound.service
    (WorkerHeartbeat.step_effect taken)
  simp only [WorkerHeartbeat.step] at taken
  split at taken
  · rename_i resolved held
    cases taken
    have before := sound.service.activeBeat.kept held rfl
    have after := sound.service.activeBeat.kept_finish held
    have quiet : starts m.service
        { m.service with activeBeat := m.service.activeBeat.finish run resolved } = false := by
      unfold starts
      rw [sound.service.activeBeat.current held rfl]
      rfl
    simp only [Monitor.follow, quiet, Bool.false_eq_true, if_false]
    refine ⟨invariant, fun fresh => ?_, sound.timer, fun on => ?_⟩
    · obtain ⟨_, empty, _⟩ := sound.off fresh
      rw [empty] at held
      cases held
    · have next := (sound.timer on).2
      cases sound.onTime on with
      | resting rests => rw [rests] at before; cases before
      | probing races probes => rw [probes] at before; cases before
      | upserting heartbeat upserts => rw [upserts] at before; cases before
      | upserted flight holds done row probed inTime =>
          refine .resting after row ?_
          show m.due ≤ m.last + pace.delay + intervalMs
          omega
  · cases taken

/-- The other callbacks leave the runs, the times of the row and the timer. -/
theorem sound_other (sound : Sound pace intervalMs m) {event : WorkerHeartbeat.Event}
    (invariant : WorkerHeartbeat.Invariant service)
    (follow : m.follow intervalMs event service = { m with
      service
      startedAt := if starts m.service service then m.now else m.startedAt })
    (started : service.started = m.service.started) (timer : service.timer = m.service.timer)
    (activeBeat : service.activeBeat = m.service.activeBeat)
    (row : service.row.map (·.lastHeartbeatAt) = m.service.row.map (·.lastHeartbeatAt)) :
    Sound pace intervalMs (m.follow intervalMs event service) := by
  have quiet : starts m.service service = false := not_starts (congrArg _ activeBeat)
  rw [follow, quiet]
  exact sound.same invariant started timer activeBeat row

end Runs

section Reachable

variable {settings : Settings} {pace : Pace} {seconds : ℕ} {m n : Monitor}

theorem sound_service (sound : Sound pace (interval seconds) m) {event : WorkerHeartbeat.Event}
    {service : WorkerHeartbeat.State} (prompt : Prompt settings seconds pace m (.service event))
    (now : allowed m event = true)
    (taken : WorkerHeartbeat.step settings m.service event = some service) :
    Sound pace (interval seconds) (m.follow (interval seconds) event service) := by
  have invariant := WorkerHeartbeat.effect_invariant sound.service
    (WorkerHeartbeat.step_effect taken)
  cases event with
  | onModuleInit => exact sound_onModuleInit sound taken
  | probed run consumersActive activeJobCount time =>
      exact sound_probed sound (of_decide_eq_true now) taken
  | upsertApplies run time => exact sound_upsertApplies sound (of_decide_eq_true now) taken
  | upsertSettles run resolved =>
      obtain rfl : resolved = true := prompt
      exact sound_upsertSettles sound taken
  | beatFinally run => exact sound_beatFinally sound taken
  | tick =>
      have ripe : m.due ≤ m.now := of_decide_eq_true now
      simp only [WorkerHeartbeat.step] at taken
      split_ifs at taken with allowed
      cases taken
      rw [Bool.and_eq_true] at allowed
      exact sound_beat sound invariant allowed.1 (m.now + interval seconds)
        ⟨by omega, Nat.le_refl _⟩
  | beat =>
      cases taken
      exact sound_beat sound invariant prompt m.due (sound.timer prompt)
  | onModuleDestroy =>
      cases taken
      have quiet (closings : List WorkerHeartbeat.Closing) : starts m.service
          { m.service with stopping := true, timer := false, closings } = false := not_starts rfl
      simp only [Monitor.follow, quiet, Bool.false_eq_true, if_false]
      exact ⟨invariant, fun fresh => ⟨rfl, (sound.off fresh).2⟩, (fun on => by cases on),
        (fun on => by cases on)⟩
  | probeSettles dependency probe connected =>
      simp only [WorkerHeartbeat.step] at taken
      split at taken <;> cases taken
      exact sound_other sound invariant rfl rfl rfl rfl rfl
  | probeFinally dependency probe =>
      simp only [WorkerHeartbeat.step] at taken
      split at taken <;> cases taken
      exact sound_other sound invariant rfl rfl rfl rfl rfl
  | raceSettles dependency run =>
      simp only [WorkerHeartbeat.step] at taken
      split at taken
      · rename_i races held
        split at taken
        · rename_i connected _ _
          cases taken
          have quiet : starts m.service (m.service.answer run races dependency connected) = false :=
            not_starts rfl
          simp only [Monitor.follow, quiet, Bool.false_eq_true, if_false]
          exact sound_answer sound invariant held
        · cases taken
      · cases taken
  | deadline dependency run =>
      simp only [WorkerHeartbeat.step] at taken
      split at taken
      · rename_i races held
        split at taken
        · cases taken
          have quiet : starts m.service (m.service.answer run races dependency false) = false :=
            not_starts rfl
          simp only [Monitor.follow, quiet, Bool.false_eq_true, if_false]
          exact sound_answer sound invariant held
        · cases taken
      · cases taken
  | callSettles call =>
      simp only [WorkerHeartbeat.step] at taken
      repeat' split at taken
      all_goals cases taken
      exact sound_other sound invariant rfl rfl rfl rfl rfl
  | beatAwaited closing time =>
      simp only [WorkerHeartbeat.step] at taken
      repeat' split at taken
      all_goals cases taken
      exact sound_other sound invariant rfl rfl rfl rfl rfl
  | stopApplies closing =>
      simp only [WorkerHeartbeat.step] at taken
      split at taken <;> cases taken
      refine sound_other sound invariant rfl rfl rfl rfl ?_
      rw [Option.map_map]
      rfl
  | stopSettles closing =>
      simp only [WorkerHeartbeat.step] at taken
      split at taken <;> cases taken
      exact sound_other sound invariant rfl rfl rfl rfl rfl

/-- When no callback of a promise is left, the timer may call back. -/
theorem drained_of_still (known : WorkerHeartbeat.Known m.service) (still : Still settings m) :
    m.service.drained = true := by
  unfold WorkerHeartbeat.State.drained
  rw [Bool.and_eq_true, List.all_eq_true, List.all_eq_true]
  constructor
  · intro flight member
    obtain ⟨run, bound, here⟩ := List.getElem_of_mem member
    have held : m.service.activeBeat.flights[run]? = some flight := by
      rw [List.getElem?_eq_getElem bound, here]
    cases flight with
    | settled resolved =>
        have left := still (.beatFinally run) rfl
        simp [WorkerHeartbeat.step, held] at left
    | pending | finished => rfl
  · intro call member
    obtain ⟨position, bound, here⟩ := List.getElem_of_mem member
    have found : m.service.calls[position]? = some call := by
      rw [List.getElem?_eq_getElem bound, here]
    cases call with
    | waiting run =>
        cases alive : m.service.activeBeat.live run with
        | true => simp [WorkerHeartbeat.State.overdue, alive]
        | false =>
            obtain ⟨resolved, finished⟩ := Memo.finished_of_not_live alive (known run member)
            have left := still (.callSettles position) rfl
            simp [WorkerHeartbeat.step, found, finished] at left
    | returned | settled => rfl

/-- A run waits for its probes no longer than to their deadline. -/
theorem probing_bound {later : ℕ}
    {races : WorkerHeartbeat.Dependency → WorkerHeartbeat.Race}
    (punctual : clock.Punctual (machine settings seconds) pace.patience m later)
    (still : Still settings m)
    (kept : m.service.activeBeat.kept = some (.pending (.probing races))) :
    later ≤ m.startedAt + pace.answer := by
  obtain ⟨run, -, held⟩ := Option.bind_eq_some_iff.mp kept
  have waits (dependency : WorkerHeartbeat.Dependency) (open' : (races dependency).answer = none) :
      later ≤ m.startedAt + pace.answer := by
    rw [Pace.answer, ← Nat.add_assoc]
    apply punctual (.service (.deadline dependency run)) _ rfl
    simp [machine, step, allowed, clock, WorkerHeartbeat.step, held, open']
  cases redis : (races .redis).answer with
  | none => exact waits .redis redis
  | some redisConnected =>
      cases storage : (races .storage).answer with
      | none => exact waits .storage storage
      | some storageConnected =>
          have left := still (.probed run true 0 0) rfl
          simp [WorkerHeartbeat.step, held, redis, storage] at left

theorem sound_wait (sound : Sound pace (interval seconds) m)
    (known : WorkerHeartbeat.Known m.service) {duration : ℕ}
    (prompt : Prompt settings seconds pace m (.wait duration)) :
    Sound pace (interval seconds) { m with now := m.now + duration } := by
  obtain ⟨punctual, nothing | still, quick⟩ := prompt
  · subst nothing
    exact sound
  have ticks (on : m.service.timer = true) : m.now + duration ≤ m.due + pace.patience := by
    apply punctual (.service .tick) _ rfl
    simp [machine, step, allowed, clock, WorkerHeartbeat.step, on, drained_of_still known still]
  exact
    { service := sound.service
      off := sound.off
      timer := fun on => by
        refine ⟨ticks on, Nat.le_trans (sound.timer on).2 ?_⟩
        exact Nat.add_le_add_right (Nat.le_add_right ..) _
      onTime := fun on => by
        cases sound.onTime on with
        | resting rests row due => exact .resting rests row due
        | probing races probes started inTime =>
            exact .probing races probes started (probing_bound punctual still probes)
        | upserting heartbeat upserts time past probed inTime =>
            exact .upserting heartbeat upserts time (Nat.le_trans past (Nat.le_add_right ..))
              probed (quick heartbeat false upserts)
        | upserted flight holds done row probed inTime =>
            rcases done with ⟨heartbeat, rfl⟩ | rfl
            · exact .upserted _ holds (.inl ⟨heartbeat, rfl⟩) row probed
                (quick heartbeat true holds)
            · obtain ⟨run, -, held⟩ := Option.bind_eq_some_iff.mp holds
              have left := still (.beatFinally run) rfl
              simp [WorkerHeartbeat.step, held] at left }

theorem sound_step (sound : Sound pace (interval seconds) m)
    (known : WorkerHeartbeat.Known m.service) {event : Event}
    (prompt : Prompt settings seconds pace m event)
    (taken : step settings seconds m event = some n) : Sound pace (interval seconds) n := by
  cases event with
  | wait duration =>
      cases taken
      exact sound_wait sound known prompt
  | service event =>
      simp only [step] at taken
      split_ifs at taken with now
      obtain ⟨service, stepped, rfl⟩ := Option.map_eq_some_iff.mp taken
      exact sound_service sound prompt now stepped

/-- The service under a clock behaves as the service alone. -/
theorem service_of_reachable {guard : Monitor → Event → Prop}
    (reached : (machine settings seconds).Reachable guard m) :
    (WorkerHeartbeat.machine settings).Reachable Machine.anything m.service := by
  apply reached.invariant
  · exact fun s initial => ⟨s.service, initial, .refl _⟩
  · intro s event t _ taken before
    cases event with
    | wait duration =>
        cases taken
        exact before
    | service event =>
        simp only [machine, step] at taken
        split_ifs at taken
        obtain ⟨service, stepped, rfl⟩ := Option.map_eq_some_iff.mp taken
        have same : (s.follow (interval seconds) event service).service = service := by
          cases event <;> rfl
        rw [same]
        exact before.extend (.single event trivial stepped)

theorem sound_of_reachable
    (reached : (machine settings seconds).Reachable (Prompt settings seconds pace) m) :
    Sound pace (interval seconds) m := by
  refine reached.strengthen (fun m : Monitor => WorkerHeartbeat.Known m.service)
    (fun _ reached => WorkerHeartbeat.reachable_known (service_of_reachable reached)) ?_
    fun _ _ _ known _ prompt taken sound => sound_step sound known prompt taken
  rintro start initial
  have begun : (WorkerHeartbeat.machine settings).Reachable Machine.anything start.service :=
    ⟨start.service, initial, .refl _⟩
  have service := WorkerHeartbeat.reachable_invariant begun
  have fresh : start.service = _ := initial
  have silent : start.service.timer = false := by rw [fresh]
  refine ⟨service, fun _ => ⟨silent, by rw [fresh], by rw [fresh]⟩, fun on => ?_, fun on => ?_⟩
  all_goals
    rw [silent] at on
    cases on

end Reachable

/-- The longest age of a heartbeat of a prompt service. -/
def Pace.age (pace : Pace) (intervalMs : ℕ) : ℕ :=
  pace.pause intervalMs + pace.answer + pace.delay

theorem age_le {pace : Pace} {intervalMs : ℕ} {m : Monitor} (sound : Sound pace intervalMs m)
    (on : m.service.timer = true) : m.now ≤ m.last + pace.age intervalMs := by
  have late := (sound.timer on).1
  have pause : pace.pause intervalMs = intervalMs + pace.patience + pace.delay := rfl
  have age : pace.age intervalMs = pace.pause intervalMs + pace.answer + pace.delay := rfl
  cases sound.onTime on with
  | resting rests row due => omega
  | probing races probes started inTime => omega
  | upserting heartbeat upserts time past probed inTime => omega
  | upserted flight holds done row probed inTime => omega

/-- What the diagnostics of a system with a running worker show. -/
structure FreshnessLaw (settings : Settings) (heartbeatIntervalSeconds : ℕ) : Prop where
  fresh : ∀ pace heartbeatStaleSeconds,
    pace.age (interval heartbeatIntervalSeconds) ≤ heartbeatStaleSeconds * 1000 →
    ∀ m, (machine settings heartbeatIntervalSeconds).Reachable
        (Prompt settings heartbeatIntervalSeconds pace) m →
      m.service.timer = true → ∀ row, m.service.row = some row →
        ∀ dispatches id (instances : List InstanceRow), (id, row) ∈ instances →
          (diagnostics dispatches instances m.now heartbeatStaleSeconds).worker.map
            (·.freshness) = some .fresh
  appears : ∀ pace m, (machine settings heartbeatIntervalSeconds).Reachable
      (Prompt settings heartbeatIntervalSeconds pace) m →
    m.service.timer = true → m.service.row = none →
      m.now ≤ m.bootAt + pace.age (interval heartbeatIntervalSeconds)

/-- A prompt worker is shown as fresh as long as its timer runs, whatever the dependencies answer
and whatever rows other workers have left. -/
theorem freshness_law (settings : Settings) (heartbeatIntervalSeconds : ℕ) :
    FreshnessLaw settings heartbeatIntervalSeconds where
  fresh pace heartbeatStaleSeconds enough m reached on row present dispatches id instances
      member := by
    have age := age_le (sound_of_reachable reached) on
    have last : m.last = row.lastHeartbeatAt := by rw [Monitor.last, present]; rfl
    rw [last] at age
    exact diagnostics_fresh dispatches member (Nat.le_trans age (Nat.add_le_add_left enough _))
  appears pace m reached on absent := by
    have age := age_le (sound_of_reachable reached) on
    have last : m.last = m.bootAt := by rw [Monitor.last, absent]; rfl
    rwa [last] at age

/-- What happens without waiting. -/
def Immediate (_ : Monitor) : Event → Prop
  | .wait _ | .service .beat => False
  | .service (.upsertSettles _ resolved) => resolved = true
  | .service _ => True

instance (m : Monitor) (event : Event) : Decidable (Immediate m event) := by
  unfold Immediate
  split <;> infer_instance

theorem prompt_of_immediate {settings : Settings} {seconds : ℕ} {pace : Pace} (m : Monitor)
    (event : Event) (immediate : Immediate m event) : Prompt settings seconds pace m event := by
  cases event with
  | wait => exact immediate.elim
  | service event => cases event <;> first | exact immediate | exact immediate.elim

def productionSettings : Settings := ⟨.production, "worker", "0.0.1"⟩

def newMonitor : Monitor :=
  ⟨⟨false, false, false, .empty, fun _ => .empty, [], [], [], none⟩, 0, 0, 0, 0, 0⟩

/-- Redis answers the first run, and the storage never does. -/
def redisAnswers : List Event :=
  [.service .onModuleInit, .service (.probeSettles .redis 0 true),
    .service (.probeFinally .redis 0), .service (.raceSettles .redis 0)]

/-- The run gives the storage up and writes its heartbeat. -/
def storageMissing : List Event :=
  [.service (.deadline .storage 0), .service (.probed 0 true 0 3005),
    .service (.upsertApplies 0 3005), .service (.upsertSettles 0 true), .service (.beatFinally 0),
    .service (.callSettles 0)]

def waiting : Monitor :=
  ((machine productionSettings 5).execute Immediate newMonitor redisAnswers).getD newMonitor

def late : Monitor := { waiting with now := 3005 }

def written : Monitor :=
  ((machine productionSettings 5).execute Immediate late storageMissing).getD late

/-- No callback of a promise is due while the service waits. -/
theorem still_of_waiting {m : Monitor} (waits : m = waiting ∨ m = written) :
    Still productionSettings m := by
  intro event micro
  rcases waits with rfl | rfl
  all_goals
    cases event with
    | probeFinally dependency probe => cases dependency <;> rcases probe with _ | probe <;> rfl
    | raceSettles dependency run => cases dependency <;> rcases run with _ | run <;> rfl
    | probed run | beatFinally run => rcases run with _ | run <;> rfl
    | callSettles call => rcases call with _ | call <;> rfl
    | _ => cases micro

/-- A worker with a dead storage is shown as fresh. -/
theorem freshness_law_deadStorage : ∃ m row,
    (machine productionSettings 5).Reachable (Prompt productionSettings 5 ⟨10, 20⟩) m ∧
      m.service.timer = true ∧ m.service.row = some row ∧ row.storageConnected = false ∧
      row.status = .degraded ∧ m.now = 5005 ∧
      (diagnostics [] [("worker-0", row)] m.now 9).worker.map (·.freshness) = some .fresh := by
  have answered : (machine productionSettings 5).execute Immediate newMonitor redisAnswers =
      some waiting := rfl
  have missing : (machine productionSettings 5).execute Immediate late storageMissing =
      some written := rfl
  have first : Prompt productionSettings 5 ⟨10, 20⟩ waiting (.wait 3005) := by
    refine ⟨fun event deadline armed calls => ?_, .inr (still_of_waiting (.inl rfl)),
      fun _ _ upserts => by cases upserts⟩
    cases event with
    | service event => cases event <;> cases armed <;> exact Nat.le_of_ble_eq_true rfl
    | wait => cases armed
  have second : Prompt productionSettings 5 ⟨10, 20⟩ written (.wait 2000) := by
    refine ⟨fun event deadline armed calls => ?_, .inr (still_of_waiting (.inr rfl)),
      fun _ _ upserts => by cases upserts⟩
    cases event with
    | service event =>
        cases event with
        | deadline dependency run =>
            cases armed
            cases dependency <;> rcases run with _ | run <;> cases calls
        | tick =>
            cases armed
            exact Nat.le_of_ble_eq_true rfl
        | _ => cases armed
    | wait => cases armed
  have path := (((Machine.path_of_execute redisAnswers answered).mono prompt_of_immediate).snoc
    (.wait 3005) first (u := late) rfl).trans
      ((Machine.path_of_execute storageMissing missing).mono prompt_of_immediate)
  have reached : (machine productionSettings 5).Reachable
      (Prompt productionSettings 5 ⟨10, 20⟩) { written with now := 5005 } :=
    ⟨newMonitor, rfl, path.snoc (.wait 2000) second rfl⟩
  have row : ∃ row, written.service.row = some row ∧ row.storageConnected = false ∧
      row.status = .degraded := ⟨_, rfl, rfl, rfl⟩
  obtain ⟨row, present, disconnected, degraded⟩ := row
  exact ⟨_, row, reached, rfl, present, disconnected, degraded, rfl,
    (freshness_law productionSettings 5).fresh ⟨10, 20⟩ 9 (by decide) _ reached rfl row present []
      "worker-0" _ (List.mem_singleton_self _)⟩

end PostsMedia.WorkerHealth
