import Mathlib.Logic.Function.Basic
import PostsMedia.Library.Machine
import PostsMedia.Library.Memo

namespace PostsMedia.WorkerHeartbeat

inductive NodeEnvironment
  | development | test | production
  deriving DecidableEq

/-- What the service reads of its configuration and of its process. -/
structure Settings where
  nodeEnvironment : NodeEnvironment
  instanceName : String
  version : String

inductive Dependency
  | redis | storage
  deriving DecidableEq

inductive Status
  | ready | degraded | stopped
  deriving DecidableEq

structure WorkerInstance where
  instanceName : String
  version : String
  status : Status
  redisConnected : Bool
  storageConnected : Bool
  dispatcherActive : Bool
  consumersActive : Bool
  activeJobCount : Nat
  startedAt : Nat
  lastHeartbeatAt : Nat
  shutdownAt : Option Nat

/-- What a run found, and the time of its statement. -/
structure Heartbeat where
  redisConnected : Bool
  storageConnected : Bool
  consumersActive : Bool
  activeJobCount : Nat
  time : Nat

def Heartbeat.status (heartbeat : Heartbeat) : Status :=
  if heartbeat.redisConnected && heartbeat.storageConnected && heartbeat.consumersActive then
    .ready
  else .degraded

/-- The `upsert` of `performBeat`. The database fills in the times of a new row. -/
def upsert (settings : Settings) (heartbeat : Heartbeat) (now : Nat) :
    Option WorkerInstance → WorkerInstance
  | none =>
      { instanceName := settings.instanceName
        version := settings.version
        status := heartbeat.status
        redisConnected := heartbeat.redisConnected
        storageConnected := heartbeat.storageConnected
        dispatcherActive := heartbeat.redisConnected
        consumersActive := heartbeat.consumersActive
        activeJobCount := heartbeat.activeJobCount
        startedAt := now
        lastHeartbeatAt := now
        shutdownAt := none }
  | some row =>
      { row with
        status := heartbeat.status
        redisConnected := heartbeat.redisConnected
        storageConnected := heartbeat.storageConnected
        dispatcherActive := heartbeat.redisConnected
        consumersActive := heartbeat.consumersActive
        activeJobCount := heartbeat.activeJobCount
        lastHeartbeatAt := heartbeat.time
        shutdownAt := none }

/-- The `updateMany` of `onModuleDestroy`. -/
def stop (time : Nat) (row : WorkerInstance) : WorkerInstance :=
  { row with status := .stopped, shutdownAt := some time }

/-- The race of a probe against its deadline. -/
structure Race where
  probe : Nat
  answer : Option Bool

/-- The program point of `performBeat`. -/
inductive Work
  | probing (races : Dependency → Race)
  | upserting (heartbeat : Heartbeat) (applied : Bool)

/-- What the promise of a `beat` call waits for. -/
inductive Call
  | returned
  | waiting (run : Nat)
  | settled (run : Nat) (resolved : Bool)
  deriving DecidableEq

/-- The program point of `onModuleDestroy`. -/
inductive Closing
  | awaiting (run : Option Nat)
  | updating (time : Nat) (applied : Bool)
  | closed

inductive Statement
  | upsert (heartbeat : Heartbeat)
  | stop

/-- The service, the calls that wait for it, the statements it has issued and its row. The outcome
of a run says whether it resolved, and that of a probe whether it connected. -/
structure State where
  started : Bool
  stopping : Bool
  timer : Bool
  activeBeat : Memo Work Bool
  probes : Dependency → Memo Unit Bool
  calls : List Call
  closings : List Closing
  issued : List Statement
  row : Option WorkerInstance

/-- The lifecycle hooks, the timer and the direct calls, and every promise and deadline. -/
inductive Event
  | onModuleInit
  | tick
  | beat
  | onModuleDestroy
  | probeSettles (dependency : Dependency) (probe : Nat) (connected : Bool)
  | probeFinally (dependency : Dependency) (probe : Nat)
  | raceSettles (dependency : Dependency) (run : Nat)
  | deadline (dependency : Dependency) (run : Nat)
  | probed (run : Nat) (consumersActive : Bool) (activeJobCount time : Nat)
  | upsertApplies (run now : Nat)
  | upsertSettles (run : Nat) (resolved : Bool)
  | beatFinally (run : Nat)
  | callSettles (call : Nat)
  | beatAwaited (closing time : Nat)
  | stopApplies (closing : Nat)
  | stopSettles (closing : Nat)

/-- A probe that is still outstanding is shared. -/
def State.probeDependency (s : State) (dependency : Dependency) : Race :=
  ⟨(s.probes dependency).target, none⟩

/-- The synchronous part of `performBeat` starts both races. -/
def State.performBeat (s : State) : Work := .probing s.probeDependency

def State.beat (s : State) : State :=
  if s.stopping then { s with calls := s.calls ++ [.returned] }
  else
    match s.activeBeat.current with
    | some run => { s with calls := s.calls ++ [.waiting run] }
    | none =>
        { s with
          activeBeat := s.activeBeat.join s.performBeat
          probes := fun dependency => (s.probes dependency).join ()
          calls := s.calls ++ [.waiting s.activeBeat.target] }

/-- One race of a run has its answer. -/
def State.answer (s : State) (run : Nat) (races : Dependency → Race) (dependency : Dependency)
    (connected : Bool) : State :=
  let race := { races dependency with answer := some connected }
  { s with activeBeat :=
      s.activeBeat.advance run (.probing (Function.update races dependency race)) }

/-- A call that waits for a finished run. -/
def State.overdue (s : State) : Call → Bool
  | .waiting run => !s.activeBeat.live run
  | _ => false

/-- No `finally` callback of a run and no caller of a finished run is left in the microtask
queue. -/
def State.drained (s : State) : Bool :=
  s.activeBeat.flights.all (!·.isSettled) && s.calls.all (!s.overdue ·)

/-- Nest calls the hooks in their order. Timers run when the microtask queue is empty. A statement
takes effect before its promise settles, and a rejected one perhaps without any. -/
def step (settings : Settings) (s : State) : Event → Option State
  | .onModuleInit =>
      if s.started || s.stopping then none
      else if settings.nodeEnvironment = .test then some s
      else some { ({ s with started := true } : State).beat with timer := true }
  | .tick => if s.timer && s.drained then some s.beat else none
  | .beat => some s.beat
  | .onModuleDestroy =>
      let closings :=
        if s.started then s.closings ++ [.awaiting s.activeBeat.current] else s.closings
      some { s with stopping := true, timer := false, closings }
  | .probeSettles dependency probe connected =>
      match (s.probes dependency).flights[probe]? with
      | some (.pending _) =>
          some { s with probes :=
            Function.update s.probes dependency ((s.probes dependency).settle probe connected) }
      | _ => none
  | .probeFinally dependency probe =>
      match (s.probes dependency).flights[probe]? with
      | some (.settled connected) =>
          some { s with probes :=
            Function.update s.probes dependency ((s.probes dependency).finish probe connected) }
      | _ => none
  | .raceSettles dependency run =>
      match s.activeBeat.flights[run]? with
      | some (.pending (.probing races)) =>
          match (races dependency).answer,
            (s.probes dependency).flights[(races dependency).probe]? with
          | none, some (.finished connected) => some (s.answer run races dependency connected)
          | _, _ => none
      | _ => none
  | .deadline dependency run =>
      match s.activeBeat.flights[run]? with
      | some (.pending (.probing races)) =>
          match (races dependency).answer with
          | none => some (s.answer run races dependency false)
          | some _ => none
      | _ => none
  | .probed run consumersActive activeJobCount time =>
      match s.activeBeat.flights[run]? with
      | some (.pending (.probing races)) =>
          match (races .redis).answer, (races .storage).answer with
          | some redisConnected, some storageConnected =>
              let heartbeat :=
                ⟨redisConnected, storageConnected, consumersActive, activeJobCount, time⟩
              some { s with
                activeBeat := s.activeBeat.advance run (.upserting heartbeat false)
                issued := s.issued ++ [.upsert heartbeat] }
          | _, _ => none
      | _ => none
  | .upsertApplies run now =>
      match s.activeBeat.flights[run]? with
      | some (.pending (.upserting heartbeat false)) =>
          some { s with
            activeBeat := s.activeBeat.advance run (.upserting heartbeat true)
            row := some (upsert settings heartbeat now s.row) }
      | _ => none
  | .upsertSettles run resolved =>
      match s.activeBeat.flights[run]? with
      | some (.pending (.upserting _ applied)) =>
          if resolved && !applied then none
          else some { s with activeBeat := s.activeBeat.settle run resolved }
      | _ => none
  | .beatFinally run =>
      match s.activeBeat.flights[run]? with
      | some (.settled resolved) =>
          some { s with activeBeat := s.activeBeat.finish run resolved }
      | _ => none
  | .callSettles call =>
      match s.calls[call]? with
      | some (.waiting run) =>
          match s.activeBeat.flights[run]? with
          | some (.finished resolved) =>
              some { s with calls := s.calls.set call (.settled run resolved) }
          | _ => none
      | _ => none
  | .beatAwaited closing time =>
      match s.closings[closing]? with
      | some (.awaiting run) =>
          if run.any s.activeBeat.live then none
          else some { s with
            closings := s.closings.set closing (.updating time false)
            issued := s.issued ++ [.stop] }
      | _ => none
  | .stopApplies closing =>
      match s.closings[closing]? with
      | some (.updating time false) =>
          some { s with
            closings := s.closings.set closing (.updating time true)
            row := s.row.map (stop time) }
      | _ => none
  | .stopSettles closing =>
      match s.closings[closing]? with
      | some (.updating _ _) => some { s with closings := s.closings.set closing .closed }
      | _ => none

def initial (s : State) : Prop :=
  s = ⟨false, false, false, .empty, fun _ => .empty, [], [], [], none⟩

def machine (settings : Settings) : Machine State Event where
  initial := initial
  step := step settings

def State.Running (s : State) (run : Nat) : Prop :=
  ∃ work, s.activeBeat.flights[run]? = some (.pending work)

def State.Outstanding (s : State) (dependency : Dependency) (probe : Nat) : Prop :=
  (s.probes dependency).flights[probe]? = some (.pending ())

/-- What a step does to the service. -/
inductive Effect (settings : Settings) (s : State) : State → Prop
  | idle : Effect settings s s
  | begun (fresh : s.stopping = false) :
      Effect settings s { ({ s with started := true } : State).beat with timer := true }
  | beaten : Effect settings s s.beat
  | destroyed (closings : List Closing)
      (awaits : closings = s.closings ∨
        closings = s.closings ++ [.awaiting s.activeBeat.current]) :
      Effect settings s { s with stopping := true, timer := false, closings }
  | probeMoved (dependency : Dependency) (memo : Memo Unit Bool)
      (move : (s.probes dependency).Move False memo) :
      Effect settings s { s with probes := Function.update s.probes dependency memo }
  | answered (run : Nat) (races races' : Dependency → Race)
      (held : s.activeBeat.flights[run]? = some (.pending (.probing races))) :
      Effect settings s { s with activeBeat := s.activeBeat.advance run (.probing races') }
  | issued (run : Nat) (races : Dependency → Race) (heartbeat : Heartbeat)
      (held : s.activeBeat.flights[run]? = some (.pending (.probing races))) :
      Effect settings s { s with
        activeBeat := s.activeBeat.advance run (.upserting heartbeat false)
        issued := s.issued ++ [.upsert heartbeat] }
  | upserted (run now : Nat) (heartbeat : Heartbeat)
      (held : s.activeBeat.flights[run]? = some (.pending (.upserting heartbeat false))) :
      Effect settings s { s with
        activeBeat := s.activeBeat.advance run (.upserting heartbeat true)
        row := some (upsert settings heartbeat now s.row) }
  | settled (run : Nat) (heartbeat : Heartbeat) (applied resolved : Bool)
      (held : s.activeBeat.flights[run]? = some (.pending (.upserting heartbeat applied))) :
      Effect settings s { s with activeBeat := s.activeBeat.settle run resolved }
  | finished (run : Nat) (resolved : Bool)
      (held : s.activeBeat.flights[run]? = some (.settled resolved)) :
      Effect settings s { s with activeBeat := s.activeBeat.finish run resolved }
  | called (call run : Nat) (resolved : Bool) (waits : s.calls[call]? = some (.waiting run))
      (held : s.activeBeat.flights[run]? = some (.finished resolved)) :
      Effect settings s { s with calls := s.calls.set call (.settled run resolved) }
  | awaited (closing time : Nat) (run : Option Nat)
      (waits : s.closings[closing]? = some (.awaiting run))
      (ended : run.any s.activeBeat.live = false) :
      Effect settings s { s with
        closings := s.closings.set closing (.updating time false)
        issued := s.issued ++ [.stop] }
  | stopped (closing time : Nat) (updates : s.closings[closing]? = some (.updating time false)) :
      Effect settings s { s with
        closings := s.closings.set closing (.updating time true)
        row := s.row.map (stop time) }
  | closed (closing : Nat) :
      Effect settings s { s with closings := s.closings.set closing .closed }

section Steps

variable {settings : Settings} {s t : State} {event : Event}

theorem step_effect (taken : step settings s event = some t) : Effect settings s t := by
  cases event with
  | onModuleInit =>
      simp only [step] at taken
      split_ifs at taken with once
      · obtain rfl := Option.some.inj taken
        exact .idle
      · obtain rfl := Option.some.inj taken
        rw [Bool.or_eq_true, not_or] at once
        exact .begun (Bool.eq_false_iff.mpr once.2)
  | tick =>
      simp only [step] at taken
      split_ifs at taken
      obtain rfl := Option.some.inj taken
      exact .beaten
  | beat =>
      obtain rfl := Option.some.inj taken
      exact .beaten
  | onModuleDestroy =>
      obtain rfl := Option.some.inj taken
      apply Effect.destroyed
      split
      · exact Or.inr rfl
      · exact Or.inl rfl
  | probeSettles dependency probe connected =>
      simp only [step] at taken
      split at taken
      · rename_i held
        obtain rfl := Option.some.inj taken
        exact .probeMoved _ _ (.settled _ _ _ _ held)
      · cases taken
  | probeFinally dependency probe =>
      simp only [step] at taken
      split at taken
      · rename_i held
        obtain rfl := Option.some.inj taken
        exact .probeMoved _ _ (.finished _ _ _ held)
      · cases taken
  | raceSettles dependency run =>
      simp only [step] at taken
      split at taken
      · rename_i held
        split at taken
        · obtain rfl := Option.some.inj taken
          exact .answered _ _ _ held
        · cases taken
      · cases taken
  | deadline dependency run =>
      simp only [step] at taken
      split at taken
      · rename_i held
        split at taken
        · obtain rfl := Option.some.inj taken
          exact .answered _ _ _ held
        · cases taken
      · cases taken
  | probed run consumersActive activeJobCount time =>
      simp only [step] at taken
      split at taken
      · rename_i held
        split at taken
        · obtain rfl := Option.some.inj taken
          exact .issued _ _ _ held
        · cases taken
      · cases taken
  | upsertApplies run now =>
      simp only [step] at taken
      split at taken
      · rename_i held
        obtain rfl := Option.some.inj taken
        exact .upserted _ _ _ held
      · cases taken
  | upsertSettles run resolved =>
      simp only [step] at taken
      split at taken
      · rename_i held
        split_ifs at taken
        obtain rfl := Option.some.inj taken
        exact .settled _ _ _ _ held
      · cases taken
  | beatFinally run =>
      simp only [step] at taken
      split at taken
      · rename_i held
        obtain rfl := Option.some.inj taken
        exact .finished _ _ held
      · cases taken
  | callSettles call =>
      simp only [step] at taken
      split at taken
      · rename_i waits
        split at taken
        · rename_i held
          obtain rfl := Option.some.inj taken
          exact .called _ _ _ waits held
        · cases taken
      · cases taken
  | beatAwaited closing time =>
      simp only [step] at taken
      split at taken
      · rename_i waits
        split_ifs at taken with live
        obtain rfl := Option.some.inj taken
        exact .awaited _ _ _ waits (by simpa using live)
      · cases taken
  | stopApplies closing =>
      simp only [step] at taken
      split at taken
      · rename_i updates
        obtain rfl := Option.some.inj taken
        exact .stopped _ _ updates
      · cases taken
  | stopSettles closing =>
      simp only [step] at taken
      split at taken
      · obtain rfl := Option.some.inj taken
        exact .closed _
      · cases taken

theorem beat_activeBeat (s : State) :
    s.activeBeat.Move (s.stopping = false) s.beat.activeBeat := by
  unfold State.beat
  split
  · exact .stays _
  · rename_i admits
    split
    · exact .stays _
    · exact .joined _ _ (by simpa using admits)

theorem beat_probes (s : State) (dependency : Dependency) :
    (s.probes dependency).Move True (s.beat.probes dependency) := by
  unfold State.beat
  split
  · exact .stays _
  · split
    · exact .stays _
    · exact .joined _ _ trivial

/-- A step starts a run only before `onModuleDestroy`. -/
theorem Effect.activeBeat (effect : Effect settings s t) :
    s.activeBeat.Move (s.stopping = false) t.activeBeat := by
  cases effect with
  | idle | destroyed | probeMoved | called | awaited | stopped | closed => exact .stays _
  | begun => exact beat_activeBeat { s with started := true }
  | beaten => exact beat_activeBeat s
  | answered run races races' held => exact .advanced _ _ _ _ held
  | issued run races heartbeat held => exact .advanced _ _ _ _ held
  | upserted run now heartbeat held => exact .advanced _ _ _ _ held
  | settled run heartbeat applied resolved held => exact .settled _ _ _ _ held
  | finished run resolved held => exact .finished _ _ _ held

theorem Effect.probes (effect : Effect settings s t) (dependency : Dependency) :
    (s.probes dependency).Move True (t.probes dependency) := by
  cases effect with
  | begun => exact beat_probes { s with started := true } dependency
  | beaten => exact beat_probes s dependency
  | probeMoved changed memo move =>
      by_cases same : dependency = changed
      · subst same
        simpa using move.mono False.elim
      · simpa [Function.update_of_ne same] using Memo.Move.stays (s.probes dependency)
  | _ => exact .stays _

/-- A call of `beat` leaves the rest of the service. -/
theorem beat_frame (s : State) : s.beat =
    { s with
      activeBeat := s.beat.activeBeat, probes := s.beat.probes, calls := s.beat.calls } := by
  unfold State.beat
  repeat' split
  all_goals rfl

@[simp] theorem beat_stopping (s : State) : s.beat.stopping = s.stopping := by rw [beat_frame]

@[simp] theorem beat_timer (s : State) : s.beat.timer = s.timer := by rw [beat_frame]

@[simp] theorem beat_closings (s : State) : s.beat.closings = s.closings := by rw [beat_frame]

@[simp] theorem beat_issued (s : State) : s.beat.issued = s.issued := by rw [beat_frame]

@[simp] theorem beat_row (s : State) : s.beat.row = s.row := by rw [beat_frame]

theorem Heartbeat.status_ne (heartbeat : Heartbeat) : heartbeat.status ≠ .stopped := by
  unfold Heartbeat.status
  split <;> simp

theorem upsert_status (heartbeat : Heartbeat) (now : Nat) (row : Option WorkerInstance) :
    (upsert settings heartbeat now row).status = heartbeat.status := by
  cases row <;> rfl

def State.status (s : State) : Option Status := s.row.map WorkerInstance.status

/-- What holds between the steps of the service. A closing waits for the last run, and the
`STOPPED` statement follows it. -/
structure Invariant (s : State) : Prop where
  activeBeat : s.activeBeat.Sound
  probes : ∀ dependency, (s.probes dependency).Sound
  timer : s.timer = true → s.stopping = false
  awaiting : ∀ run, .awaiting run ∈ s.closings →
    s.stopping = true ∧ (s.activeBeat.current = none ∨ s.activeBeat.current = run)
  updating : ∀ time applied, .updating time applied ∈ s.closings → .stop ∈ s.issued
  stopped : .stop ∈ s.issued → s.stopping = true ∧ s.activeBeat.current = none
  row : s.status = some .stopped → .stop ∈ s.issued

/-- Everything but the end of a closing keeps what is known of the closings. -/
theorem Invariant.frame (inv : Invariant s)
    (moved : s.activeBeat.Move (s.stopping = false) t.activeBeat)
    (probed : ∀ dependency, (s.probes dependency).Move True (t.probes dependency))
    (stopping : t.stopping = s.stopping) (timer : t.timer = true → s.stopping = false)
    (awaiting : ∀ run, .awaiting run ∈ t.closings → .awaiting run ∈ s.closings)
    (updating : ∀ time applied, .updating time applied ∈ t.closings → .stop ∈ s.issued)
    (issued : .stop ∈ t.issued ↔ .stop ∈ s.issued)
    (row : t.status = some .stopped → .stop ∈ s.issued) : Invariant t where
  activeBeat := moved.sound inv.activeBeat
  probes dependency := (probed dependency).sound (inv.probes dependency)
  timer on := by
    rw [stopping]
    exact timer on
  awaiting run member := by
    obtain ⟨shut, last⟩ := inv.awaiting run (awaiting run member)
    refine ⟨stopping.trans shut, ?_⟩
    rcases moved.closed (by simp [shut]) with same | forgotten
    · rw [same]
      exact last
    · exact Or.inl forgotten
  updating time applied member := issued.mpr (updating time applied member)
  stopped member := by
    obtain ⟨shut, ended⟩ := inv.stopped (issued.mp member)
    refine ⟨stopping.trans shut, ?_⟩
    rcases moved.closed (by simp [shut]) with same | forgotten
    · rw [same]
      exact ended
    · exact forgotten
  row status := issued.mpr (row status)

theorem effect_invariant (inv : Invariant s) (effect : Effect settings s t) : Invariant t := by
  have moved := effect.activeBeat
  have probed := effect.probes
  cases effect with
  | idle => exact inv
  | begun fresh =>
      apply inv.frame moved probed
      · simp
      · intro _
        exact fresh
      · simp
      · simpa using inv.updating
      · simp
      · simpa [State.status] using inv.row
  | beaten =>
      apply inv.frame moved probed
      · simp
      · simpa using inv.timer
      · simp
      · simpa using inv.updating
      · simp
      · simpa [State.status] using inv.row
  | destroyed closings awaits =>
      constructor
      · exact inv.activeBeat
      · exact inv.probes
      · intro on
        cases on
      · intro run member
        refine ⟨rfl, ?_⟩
        rcases awaits with rfl | rfl
        · exact (inv.awaiting run member).2
        · rcases List.mem_append.mp member with old | new
          · exact (inv.awaiting run old).2
          · cases List.mem_singleton.mp new
            exact Or.inr rfl
      · intro time applied member
        rcases awaits with rfl | rfl
        · exact inv.updating time applied member
        · rcases List.mem_append.mp member with old | new
          · exact inv.updating time applied old
          · cases List.mem_singleton.mp new
      · intro member
        exact ⟨rfl, (inv.stopped member).2⟩
      · exact inv.row
  | probeMoved | answered | settled | finished | called =>
      exact inv.frame moved probed rfl inv.timer (fun _ => id) inv.updating .rfl inv.row
  | issued =>
      exact inv.frame moved probed rfl inv.timer (fun _ => id) inv.updating (by simp) inv.row
  | upserted run now heartbeat held =>
      apply inv.frame moved probed rfl inv.timer (fun _ => id) inv.updating
        .rfl
      intro status
      simp only [State.status, Option.map_some, upsert_status, Option.some.injEq] at status
      exact absurd status heartbeat.status_ne
  | awaited closing time run waits ended =>
      -- The run that the closing has waited for was the last one.
      obtain ⟨shut, last⟩ := inv.awaiting run (List.mem_of_getElem? waits)
      have quiet : s.activeBeat.current = none := by
        rcases last with none | same
        · exact none
        · cases run with
          | none => exact same
          | some run =>
              rw [← inv.activeBeat run] at same
              simp [same] at ended
      constructor
      · exact inv.activeBeat
      · exact inv.probes
      · exact inv.timer
      · intro other member
        rcases List.mem_or_eq_of_mem_set member with old | new
        · exact inv.awaiting other old
        · cases new
      · simp
      · intro _
        exact ⟨shut, quiet⟩
      · simp
  | stopped closing time updates =>
      have issued := inv.updating time false (List.mem_of_getElem? updates)
      apply inv.frame moved probed rfl inv.timer
      · intro other member
        rcases List.mem_or_eq_of_mem_set member with old | new
        · exact old
        · cases new
      · intro _ _ _
        exact issued
      · exact .rfl
      · intro _
        exact issued
  | closed closing =>
      apply inv.frame moved probed rfl inv.timer
      · intro other member
        rcases List.mem_or_eq_of_mem_set member with old | new
        · exact old
        · cases new
      · intro time applied member
        rcases List.mem_or_eq_of_mem_set member with old | new
        · exact inv.updating time applied old
        · cases new
      · exact .rfl
      · exact inv.row

theorem reachable_invariant (reached : (machine settings).Reachable Machine.anything s) :
    Invariant s := by
  refine reached.invariant ?_ ?_
  · rintro s rfl
    constructor
    · exact Memo.empty_sound
    · intro dependency
      exact Memo.empty_sound
    all_goals simp [State.status]
  · intro s event t _ taken inv
    exact effect_invariant inv (step_effect taken)

/-- A call waits for a run or has settled as that run has. -/
def State.Follows (s : State) (call run : Nat) : Prop :=
  s.calls[call]? = some (.waiting run) ∨ ∃ resolved,
    s.calls[call]? = some (.settled run resolved) ∧ s.activeBeat.outcome run = some resolved

theorem beat_calls (s : State) : ∃ call, s.beat.calls = s.calls ++ [call] := by
  unfold State.beat
  repeat' split
  all_goals exact ⟨_, rfl⟩

theorem State.Follows.append {call run : Nat} {more : List Call} (follows : s.Follows call run)
    (calls : t.calls = s.calls ++ more)
    (moved : s.activeBeat.Move (s.stopping = false) t.activeBeat) : t.Follows call run := by
  unfold State.Follows at follows ⊢
  have bound : call < s.calls.length := by
    rcases follows with waits | ⟨_, settled, _⟩
    · exact (List.getElem?_eq_some_iff.mp waits).1
    · exact (List.getElem?_eq_some_iff.mp settled).1
  rw [calls, List.getElem?_append_left bound]
  rcases follows with waits | ⟨resolved, settled, known⟩
  · exact Or.inl waits
  · exact Or.inr ⟨resolved, settled, moved.keeps known⟩

theorem Effect.follows {call run : Nat} (effect : Effect settings s t)
    (follows : s.Follows call run) : t.Follows call run := by
  have moved := effect.activeBeat
  cases effect with
  | begun =>
      obtain ⟨other, calls⟩ := beat_calls { s with started := true }
      exact follows.append calls moved
  | beaten =>
      obtain ⟨other, calls⟩ := beat_calls s
      exact follows.append calls moved
  | called settling run' resolved waits held =>
      have bound : settling < s.calls.length := (List.getElem?_eq_some_iff.mp waits).1
      unfold State.Follows
      dsimp only
      rw [List.getElem?_set]
      by_cases same : settling = call
      · subst same
        have waited : run' = run := by
          rcases follows with still | ⟨_, settled, _⟩
          · rw [waits] at still
            simpa using still
          · rw [waits] at settled
            cases settled
        subst waited
        rw [if_pos rfl, if_pos bound]
        exact Or.inr ⟨resolved, rfl, by simp [Memo.outcome, held, Flight.outcome]⟩
      · rw [if_neg same]
        exact follows
  | _ => exact follows.append (List.append_nil _).symm moved

theorem follows_after {call run : Nat} (path : (machine settings).Path Machine.anything s t)
    (follows : s.Follows call run) : t.Follows call run := by
  induction path with
  | refl => exact follows
  | snoc event _ _ taken ih => exact (step_effect taken).follows ih

/-- The microtasks of a settled run settle its calls. -/
theorem call_settles {call run : Nat} {resolved : Bool}
    (waits : s.calls[call]? = some (.waiting run))
    (known : s.activeBeat.outcome run = some resolved) :
    ∃ t, (machine settings).Path Machine.anything s t ∧
      t.calls[call]? = some (.settled run resolved) := by
  have bound : call < s.calls.length := (List.getElem?_eq_some_iff.mp waits).1
  have delivers (u : State) (calls : u.calls = s.calls)
      (finished : u.activeBeat.flights[run]? = some (.finished resolved)) :
      ∃ t, (machine settings).Path Machine.anything u t ∧
        t.calls[call]? = some (.settled run resolved) := by
    refine ⟨{ u with calls := u.calls.set call (.settled run resolved) },
      .single (.callSettles call) trivial ?_, ?_⟩
    · simp only [machine, step, calls, waits, finished]
    · simp [calls, bound]
  unfold Memo.outcome at known
  cases flight : s.activeBeat.flights[run]? with
  | none =>
      rw [flight] at known
      cases known
  | some promise =>
      rw [flight] at known
      cases promise with
      | pending work => cases known
      | settled outcome =>
          obtain rfl := Option.some.inj known
          have clears : step settings s (.beatFinally run) =
              some { s with activeBeat := s.activeBeat.finish run outcome } := by
            simp only [step, flight]
          obtain ⟨t, path, settled⟩ := delivers
            { s with activeBeat := s.activeBeat.finish run outcome } rfl (by
              simp only [Memo.finish]
              rw [Memo.getElem?_set flight, if_pos rfl])
          refine ⟨t, Machine.Path.trans ?_ path, settled⟩
          exact .single (.beatFinally run) trivial clears
      | finished outcome =>
          obtain rfl := Option.some.inj known
          exact delivers s rfl flight

/-- After the `STOPPED` statement no run is live. -/
theorem Invariant.dead (inv : Invariant s) (issued : .stop ∈ s.issued) (run : Nat) :
    s.activeBeat.live run = false := by
  rw [← Bool.not_eq_true, inv.activeBeat run, (inv.stopped issued).2]
  simp

theorem Effect.issued_after (inv : Invariant s) (effect : Effect settings s t)
    (issued : .stop ∈ s.issued) : t.issued = s.issued ∨ t.issued = s.issued ++ [.stop] := by
  cases effect with
  | issued run races heartbeat held =>
      have dead := inv.dead issued run
      simp [Memo.live, held, Flight.live] at dead
  | begun => exact Or.inl (beat_issued _)
  | beaten => exact Or.inl (beat_issued _)
  | awaited => exact Or.inr rfl
  | _ => exact Or.inl rfl

theorem Effect.status_after (inv : Invariant s) (effect : Effect settings s t)
    (status : s.status = some .stopped) : t.status = some .stopped := by
  cases effect with
  | upserted run now heartbeat held =>
      have dead := inv.dead (inv.row status) run
      simp [Memo.live, held, Flight.live] at dead
  | stopped closing time updates =>
      unfold State.status at status ⊢
      cases row : s.row with
      | none =>
          rw [row] at status
          cases status
      | some row => rfl
  | begun => simpa [State.status] using status
  | beaten => simpa [State.status] using status
  | _ => exact status

/-- No statement but a further `STOPPED` follows the first one. -/
theorem issued_after (reached : (machine settings).Reachable Machine.anything s)
    (path : (machine settings).Path Machine.anything s t) (issued : .stop ∈ s.issued) :
    ∃ count, t.issued = s.issued ++ List.replicate count .stop := by
  induction path with
  | refl => exact ⟨0, (List.append_nil _).symm⟩
  | @snoc u v event before _ taken ih =>
      obtain ⟨count, same⟩ := ih
      have inv := reachable_invariant (reached.extend before)
      have known : .stop ∈ u.issued := by
        rw [same]
        exact List.mem_append_left _ issued
      rcases (step_effect taken).issued_after inv known with stays | more
      · exact ⟨count, stays.trans same⟩
      · refine ⟨count + 1, ?_⟩
        rw [more, same, List.append_assoc, List.replicate_succ']

theorem status_after (reached : (machine settings).Reachable Machine.anything s)
    (path : (machine settings).Path Machine.anything s t) (status : s.status = some .stopped) :
    t.status = some .stopped := by
  induction path with
  | refl => exact status
  | snoc event before _ taken ih =>
      exact (step_effect taken).status_after (reachable_invariant (reached.extend before)) ih

/-- The microtasks that follow the end of a run. -/
def settling (_ : State) : Event → Prop
  | .beatFinally _ => True
  | .callSettles _ => True
  | _ => False

/-- What single flight promises in a state. `joins` says when a call during a run joins it. -/
structure SingleFlight (settings : Settings) (joins : State → Prop) (s : State) : Prop where
  oneRun : ∀ run other, s.Running run → s.Running other → run = other
  oneProbe : ∀ dependency probe other, s.Outstanding dependency probe →
    s.Outstanding dependency other → probe = other
  joined : ∀ run, s.Running run → joins s → ∀ (event : Event) (t : State),
    event = .tick ∨ event = .beat → step settings s event = some t →
      t = { s with calls := s.calls ++ [.waiting run] }
  follows : ∀ (call run : Nat) (t : State), s.calls[call]? = some (.waiting run) →
    (machine settings).Path Machine.anything s t → t.Follows call run
  settles : ∀ (call run : Nat) (resolved : Bool), s.calls[call]? = some (.waiting run) →
    s.activeBeat.outcome run = some resolved →
      ∃ t : State, (machine settings).Path Machine.anything s t ∧
        t.calls[call]? = some (.settled run resolved)
  ticks : ∀ t : State, step settings s .tick = some t → (∀ run, ¬ s.Running run) →
    t.Running s.activeBeat.flights.length ∧
      t.activeBeat.flights.length = s.activeBeat.flights.length + 1
  restarts : s.timer = true → (∀ run, ¬ s.Running run) → ∃ t u : State,
    (machine settings).Path settling s t ∧ step settings t .tick = some u ∧
      u.Running s.activeBeat.flights.length
  stopped : .stop ∈ s.issued → ∀ t : State, (machine settings).Path Machine.anything s t →
    ∃ count, t.issued = s.issued ++ List.replicate count .stop
  remains : s.status = some .stopped → ∀ t : State,
    (machine settings).Path Machine.anything s t → t.status = some .stopped

theorem State.Running.live {run : Nat} (running : s.Running run) :
    s.activeBeat.live run = true := by
  obtain ⟨work, held⟩ := running
  simp [Memo.live, held, Flight.live]

theorem State.Outstanding.live {dependency : Dependency} {probe : Nat}
    (outstanding : s.Outstanding dependency probe) : (s.probes dependency).live probe = true := by
  unfold State.Outstanding at outstanding
  simp [Memo.live, outstanding, Flight.live]

/-- A call during a run joins it. -/
theorem beat_joins {run : Nat} (inv : Invariant s) (running : s.Running run)
    (admits : s.stopping = false) : s.beat = { s with calls := s.calls ++ [.waiting run] } := by
  have current := (inv.activeBeat run).mp running.live
  simp [State.beat, admits, current]

/-- A tick that finds no run starts one. -/
theorem tick_starts (inv : Invariant s) (taken : step settings s .tick = some t)
    (quiet : ∀ run, ¬ s.Running run) : t.Running s.activeBeat.flights.length ∧
      t.activeBeat.flights.length = s.activeBeat.flights.length + 1 := by
  simp only [step] at taken
  split_ifs at taken with due
  obtain rfl := Option.some.inj taken
  rw [Bool.and_eq_true] at due
  have admits := inv.timer due.1
  have idle : s.activeBeat.current = none := by
    cases current : s.activeBeat.current with
    | none => rfl
    | some run =>
        have live := (inv.activeBeat run).mpr current
        unfold Memo.live at live
        cases flight : s.activeBeat.flights[run]? with
        | none =>
            rw [flight] at live
            cases live
        | some promise =>
            have member := List.mem_of_getElem? flight
            rw [flight] at live
            cases promise with
            | pending work => exact absurd ⟨work, flight⟩ (quiet run)
            | settled outcome =>
                have drained := due.2
                unfold State.drained at drained
                rw [Bool.and_eq_true, List.all_eq_true] at drained
                cases drained.1 _ member
            | finished outcome => cases live
  simp [State.beat, State.Running, Memo.join, admits, idle]

/-- A call waits for a run that has begun. -/
def Known (s : State) : Prop :=
  ∀ run, .waiting run ∈ s.calls → run < s.activeBeat.flights.length

theorem beat_known (sound : s.activeBeat.Sound) (known : Known s) : Known s.beat := by
  intro run member
  unfold State.beat at member ⊢
  split at member
  · rename_i stopping
    rw [if_pos stopping]
    have old : .waiting run ∈ s.calls := by simpa using member
    exact known run old
  · rename_i stopping
    rw [if_neg stopping]
    cases current : s.activeBeat.current with
    | some kept =>
        rw [current] at member
        rcases List.mem_append.mp member with old | new
        · exact known run old
        · cases List.mem_singleton.mp new
          exact Memo.lt_of_live ((sound run).mpr current)
    | none =>
        rw [current] at member
        have begun : (s.activeBeat.join s.performBeat).flights.length =
            s.activeBeat.flights.length + 1 := by simp [Memo.join, current]
        dsimp only
        rw [begun]
        rcases List.mem_append.mp member with old | new
        · exact Nat.lt_succ_of_lt (known run old)
        · cases List.mem_singleton.mp new
          simp [Memo.target, current]

theorem Effect.known (inv : Invariant s) (effect : Effect settings s t) (known : Known s) :
    Known t := by
  have grows := effect.activeBeat.length_le
  cases effect with
  | begun => exact @beat_known { s with started := true } inv.activeBeat known
  | beaten => exact beat_known inv.activeBeat known
  | called call run resolved waits held =>
      intro other member
      rcases List.mem_or_eq_of_mem_set member with old | new
      · exact known other old
      · cases new
  | _ => exact fun run member => Nat.lt_of_lt_of_le (known run member) grows

theorem reachable_known (reached : (machine settings).Reachable Machine.anything s) :
    Known s := by
  refine reached.strengthen Invariant (fun _ => reachable_invariant) ?_ ?_
  · rintro s rfl run member
    cases member
  · intro s event t inv _ _ taken known
    exact (step_effect taken).known inv known

/-- The calls of finished runs settle one after the other. -/
theorem calls_drain (settings : Settings) (known : Known s) : ∃ t,
    (machine settings).Path settling s t ∧ t.activeBeat = s.activeBeat ∧ t.timer = s.timer ∧
      t.calls.all (!t.overdue ·) = true := by
  -- The number of overdue calls falls with every call that settles.
  induction overdue : s.calls.countP s.overdue generalizing s with
  | zero =>
      refine ⟨s, .refl s, rfl, rfl, ?_⟩
      rw [List.countP_eq_zero] at overdue
      rw [List.all_eq_true]
      intro call member
      simpa using overdue call member
  | succ count ih =>
      have some : 0 < s.calls.countP s.overdue := by omega
      obtain ⟨call, member, waits⟩ := List.countP_pos_iff.mp some
      obtain ⟨position, bound, here⟩ := List.getElem_of_mem member
      cases call with
      | waiting run =>
          have dead : s.activeBeat.live run = false := by simpa [State.overdue] using waits
          obtain ⟨resolved, finished⟩ := Memo.finished_of_not_live dead (known run member)
          let next := { s with calls := s.calls.set position (.settled run resolved) }
          have taken : step settings s (.callSettles position) = .some next := by
            have found : s.calls[position]? = .some (.waiting run) := by
              rw [List.getElem?_eq_getElem bound, here]
            simp only [step, found, finished, next]
          have fewer : next.calls.countP next.overdue = count := by
            have set := List.countP_set (p := s.overdue) (a := .settled run resolved) bound
            rw [here, waits, overdue] at set
            have same : next.overdue = s.overdue := rfl
            rw [same, set]
            rfl
          have knows : Known next := by
            intro other member
            rcases List.mem_or_eq_of_mem_set member with old | new
            · exact known other old
            · cases new
          obtain ⟨t, path, same, timer, drained⟩ := ih knows fewer
          refine ⟨t, Machine.Path.trans ?_ path, same, timer, drained⟩
          exact .single (.callSettles position) trivial taken
      | returned | settled => cases waits

/-- The `finally` callback of a settled run leaves no run. -/
theorem beat_drains (settings : Settings) (inv : Invariant s) (quiet : ∀ run, ¬ s.Running run) :
    ∃ t, (machine settings).Path settling s t ∧ t.activeBeat.current = none ∧
      t.activeBeat.flights.length = s.activeBeat.flights.length ∧ t.timer = s.timer := by
  cases current : s.activeBeat.current with
  | none => exact ⟨s, .refl s, current, rfl, rfl⟩
  | some run =>
      have alive := (inv.activeBeat run).mpr current
      have bound := Memo.lt_of_live alive
      unfold Memo.live at alive
      rw [List.getElem?_eq_getElem bound] at alive
      cases flight : s.activeBeat.flights[run] with
      | pending work =>
          refine absurd ⟨work, ?_⟩ (quiet run)
          rw [List.getElem?_eq_getElem bound, flight]
      | settled resolved =>
          have held : s.activeBeat.flights[run]? = some (.settled resolved) := by
            rw [List.getElem?_eq_getElem bound, flight]
          refine ⟨{ s with activeBeat := s.activeBeat.finish run resolved },
            .single (.beatFinally run) trivial ?_, ?_, ?_, rfl⟩
          · simp only [machine, step, held]
          · simp [Memo.finish, current]
          · simp [Memo.finish]
      | finished resolved =>
          rw [flight] at alive
          cases alive

theorem not_running (inv : Invariant s) (idle : s.activeBeat.current = none) (run : Nat) :
    ¬ s.Running run := by
  intro running
  have current := (inv.activeBeat run).mp running.live
  rw [idle] at current
  cases current

/-- When a run has settled, the next tick comes after the microtasks and starts another. -/
theorem tick_restarts (reached : (machine settings).Reachable Machine.anything s)
    (timer : s.timer = true) (quiet : ∀ run, ¬ s.Running run) : ∃ t u,
      (machine settings).Path settling s t ∧ step settings t .tick = some u ∧
        u.Running s.activeBeat.flights.length := by
  have anywhere (u v : State) (path : (machine settings).Path settling u v) :
      (machine settings).Path Machine.anything u v := path.mono (fun _ _ _ => trivial)
  obtain ⟨r, first, idle, length, kept⟩ :=
    beat_drains settings (reachable_invariant reached) quiet
  have between := reached.extend (anywhere s r first)
  obtain ⟨t, second, same, kept', drained⟩ :=
    calls_drain settings (reachable_known between)
  have inv := reachable_invariant (between.extend (anywhere r t second))
  rw [← same] at idle length
  have unsettled : t.activeBeat.flights.all (!·.isSettled) = true := by
    rw [List.all_eq_true]
    intro flight member
    obtain ⟨run, bound, here⟩ := List.getElem_of_mem member
    cases flight with
    | settled outcome =>
        have alive : t.activeBeat.live run = true := by
          unfold Memo.live
          rw [List.getElem?_eq_getElem bound, here]
          rfl
        rw [inv.activeBeat, idle] at alive
        cases alive
    | pending | finished => rfl
  have taken : step settings t .tick = some t.beat := by
    have due : t.drained = true := by
      unfold State.drained
      rw [Bool.and_eq_true]
      exact ⟨unsettled, drained⟩
    simp only [step, kept', kept, timer, due, Bool.and_self, if_true]
  refine ⟨t, t.beat, first.trans second, taken, ?_⟩
  rw [← length]
  exact (tick_starts inv taken (not_running inv idle)).1

/-- In every reachable state one run and one probe for each dependency are outstanding at most, the
calls during a run settle with it unless the service is stopping, and nothing follows `STOPPED`. A
call after `onModuleDestroy` returns at once. -/
theorem heartbeat_singleFlight (settings : Settings)
    (reached : (machine settings).Reachable Machine.anything s) :
    SingleFlight settings (fun s => s.stopping = false) s ∧ (s.stopping = true →
      step settings s .beat = some { s with calls := s.calls ++ [.returned] }) := by
  have inv := reachable_invariant reached
  constructor
  · constructor
    · intro run other first second
      exact inv.activeBeat.unique first.live second.live
    · intro dependency probe other first second
      exact (inv.probes dependency).unique first.live second.live
    · rintro run running admits event t (rfl | rfl) taken
      · simp only [step] at taken
        split_ifs at taken
        obtain rfl := Option.some.inj taken
        exact beat_joins inv running admits
      · obtain rfl := Option.some.inj taken
        exact beat_joins inv running admits
    · intro call run t waits path
      exact follows_after path (Or.inl waits)
    · intro call run resolved waits known
      exact call_settles waits known
    · intro t taken quiet
      exact tick_starts inv taken quiet
    · intro timer quiet
      exact tick_restarts reached timer quiet
    · intro issued t path
      exact issued_after reached path issued
    · intro status t path
      exact status_after reached path status
  · intro stopping
    simp [step, State.beat, stopping]

end Steps

def production : Settings := ⟨.production, "worker-1", "0.0.1"⟩

/-- The storage probe never settles. Two calls share a run, and the worker is stopped after it. -/
def hangingStorage : List Event :=
  [.onModuleInit, .beat, .probeSettles .redis 0 true, .probeFinally .redis 0,
    .raceSettles .redis 0, .onModuleDestroy, .deadline .storage 0, .probed 0 true 2 3000,
    .upsertApplies 0 3001, .upsertSettles 0 true, .beatFinally 0, .callSettles 0, .callSettles 1,
    .beatAwaited 0 3002, .stopApplies 0, .stopSettles 0]

theorem hangingStorage_singleFlight : ∃ s : State, s.status = some .stopped ∧
    s.calls = [.settled 0 true, .settled 0 true] ∧
    SingleFlight production (fun s => s.stopping = false) s := by
  obtain ⟨s, reached, observed⟩ := Machine.reachable_of_observed (machine production)
    Machine.anything (fun s : State => (s.status, s.calls))
    (some .stopped, [.settled 0 true, .settled 0 true]) hangingStorage rfl (by decide +kernel)
  simp only [Prod.mk.injEq] at observed
  exact ⟨s, observed.1, observed.2, (heartbeat_singleFlight production reached).1⟩

/-- A direct call during a run returns at once when the service is stopping. -/
theorem stopping_returns : ¬ ∀ (settings : Settings) (s : State),
    (machine settings).Reachable Machine.anything s →
      SingleFlight settings (fun _ => True) s := by
  intro all
  obtain ⟨s, reached, observed⟩ := Machine.reachable_of_observed (machine production)
    Machine.anything
    (fun s : State => (s.stopping, s.calls, s.activeBeat.flights[0]?.any Flight.live,
      s.activeBeat.outcome 0)) (true, [.waiting 0], true, none) [.onModuleInit, .onModuleDestroy]
    rfl (by decide +kernel)
  simp only [Prod.mk.injEq] at observed
  obtain ⟨stopping, calls, live, unsettled⟩ := observed
  have running : s.Running 0 := by
    unfold Memo.outcome at unsettled
    cases flight : s.activeBeat.flights[0]? with
    | none => simp [flight] at live
    | some promise =>
        cases promise with
        | pending work => exact ⟨work, flight⟩
        | settled | finished => simp [flight, Flight.outcome] at unsettled
  have joined := (all production s reached).joined 0 running trivial .beat s.beat (Or.inr rfl) rfl
  have returned : s.beat.calls = [.waiting 0, .returned] := by
    simp [State.beat, stopping, calls]
  rw [joined, calls] at returned
  simp at returned

end PostsMedia.WorkerHeartbeat
