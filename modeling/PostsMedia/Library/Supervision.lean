import Mathlib.Data.Nat.Basic
import Mathlib.Logic.Basic

namespace Supervision

/-- The two signals that stop a child process. -/
inductive Signal
  | term
  | kill
  deriving DecidableEq, Repr

inductive Pipe
  | stdout
  | stderr
  deriving DecidableEq, Repr

/-- How a run reads the output of its child and what it makes of the end. A run that reads on still
collects output after it has stopped the child. -/
structure Run (β χ ε ρ : Type*) where
  empty : β
  collect : β → Pipe → χ → Except ε β
  readsOn : Bool
  overdue : ε
  conclude : β → Option ℤ → Except ε ρ
  timeoutMs : ℕ
  graceMs : ℕ

/-- A child with the local variables of its run. A timer shows its deadline while it is armed. -/
structure Child (β ε ρ : Type*) where
  output : β
  termination : Option ε
  settled : Option (Except ε ρ)
  timer : Option ℕ
  escalation : Option ℕ
  signals : List (Signal × ℕ)
  tracked : Bool
  failed : Bool
  closed : Bool

/-- What the event loop tells a run. -/
inductive Event (χ ε : Type*)
  | data (pipe : Pipe) (chunk : χ)
  | overdue
  | escalate
  | error (reason : ε)
  | close (code : Option ℤ)

/-- What a run has come to, apart from its timers and signals. -/
inductive Verdict (β ε ρ : Type*)
  | reading (output : β)
  | stopped (reason : ε)
  | ended (result : Except ε ρ)

variable {β χ ε ρ : Type*}

/-- Only a run that still reads is stopped. -/
def Verdict.stop (reason : ε) : Verdict β ε ρ → Verdict β ε ρ
  | .reading _ => .stopped reason
  | verdict => verdict

def Verdict.result : Verdict β ε ρ → Option (Except ε ρ)
  | .ended result => some result
  | _ => none

namespace Child

variable (run : Run β χ ε ρ) (now : ℕ) (child : Child β ε ρ)

def start : Child β ε ρ where
  output := run.empty
  termination := none
  settled := none
  timer := some (now + run.timeoutMs)
  escalation := none
  signals := []
  tracked := true
  failed := false
  closed := false

/-- Only the first reason stops the child. -/
def terminate (reason : ε) : Child β ε ρ :=
  if child.termination.isSome then child
  else
    { child with
      termination := some reason
      timer := none
      escalation := some (now + run.graceMs)
      signals := child.signals ++ [(.term, now)] }

/-- A promise settles once. Then both timers are cleared. -/
def settle (result : Except ε ρ) : Child β ε ρ :=
  if child.settled.isSome then child
  else { child with settled := some result, timer := none, escalation := none }

/-- By when an event loop whose timers lag no more than this and a system that ends a killed child
within its patience must call back. -/
def due (lag patience : ℕ) : Option ℕ :=
  (child.timer.map (· + lag)).or ((child.escalation.map (· + lag)).or
    ((child.signals.find? (·.1 = .kill)).map (·.2 + patience)))

def verdict : Verdict β ε ρ :=
  match child.settled, child.termination with
  | some result, _ => .ended result
  | none, some reason => .stopped reason
  | none, none => .reading child.output

end Child

namespace Run

variable (run : Run β χ ε ρ)

/-- One callback. A timer calls back only while it is armed, and each end is heard once. -/
def step (now : ℕ) (child : Child β ε ρ) : Event χ ε → Option (Child β ε ρ)
  | .data pipe chunk =>
      if child.closed then none
      else if child.termination.isSome && !run.readsOn then some child
      else some (match run.collect child.output pipe chunk with
        | .ok output => { child with output := output }
        | .error reason => child.terminate run now reason)
  | .overdue =>
      if child.timer.any (· ≤ now) then some (child.terminate run now run.overdue) else none
  | .escalate =>
      if child.escalation.any (· ≤ now) then
        some { child with escalation := none, signals := child.signals ++ [(.kill, now)] }
      else none
  | .error reason =>
      if child.failed then none
      else some ({ child with tracked := false, failed := true }.settle
        (.error (child.termination.getD reason)))
  | .close code =>
      if child.closed then none
      else some ({ child with tracked := false, closed := true }.settle
        (match child.termination with
          | some reason => .error reason
          | none => run.conclude child.output code))

/-- The first reason to stop or the first end decides. -/
def judge (verdict : Verdict β ε ρ) : Event χ ε → Verdict β ε ρ
  | .data pipe chunk =>
      match verdict with
      | .reading output =>
          match run.collect output pipe chunk with
          | .ok output => .reading output
          | .error reason => .stopped reason
      | verdict => verdict
  | .overdue => verdict.stop run.overdue
  | .escalate => verdict
  | .error reason =>
      match verdict with
      | .reading _ => .ended (.error reason)
      | .stopped reason => .ended (.error reason)
      | verdict => verdict
  | .close code =>
      match verdict with
      | .reading output => .ended (run.conclude output code)
      | .stopped reason => .ended (.error reason)
      | verdict => verdict

/-- The child after callbacks at their times. -/
def play (child : Child β ε ρ) (events : List (ℕ × Event χ ε)) : Option (Child β ε ρ) :=
  events.foldlM (fun child event => run.step event.1 child event.2) child

end Run

/-- What the timers and the signals of a child tell about each other. -/
structure Sound (run : Run β χ ε ρ) (child : Child β ε ρ) : Prop where
  timer : child.timer.isSome = true → child.termination = none ∧ child.settled = none
  calm : child.termination = none → child.signals = [] ∧ child.escalation = none
  stopped : child.termination.isSome = true → ∃ t, child.signals = [(.term, t)] ∧
      (child.escalation = some (t + run.graceMs) ∨
        child.escalation = none ∧ child.settled.isSome = true) ∨
    ∃ k, t + run.graceMs ≤ k ∧ child.signals = [(.term, t), (.kill, k)] ∧ child.escalation = none
  settled : child.settled.isSome = (child.failed || child.closed)
  tracked : child.tracked = !(child.failed || child.closed)
  armed : child.settled = none → child.termination = none → child.timer.isSome = true
  accepted : ∀ result, child.settled = some (.ok result) →
    child.closed = true ∧ child.termination = none

variable {run : Run β χ ε ρ} {child child' : Child β ε ρ} {event : Event χ ε} {now : ℕ}

/-- Everything that a callback can do, with what it finds in the child. -/
inductive Effect (run : Run β χ ε ρ) (now : ℕ) (child : Child β ε ρ) :
    Event χ ε → Child β ε ρ → Prop
  | collect {pipe : Pipe} {chunk : χ} {output : β}
      (collected : run.collect child.output pipe chunk = .ok output) :
      Effect run now child (.data pipe chunk) { child with output := output }
  | ignore {pipe : Pipe} {chunk : χ} (stopped : child.termination.isSome = true) :
      Effect run now child (.data pipe chunk) child
  | refuse {pipe : Pipe} {chunk : χ} {reason : ε} (running : child.closed = false)
      (refused : run.collect child.output pipe chunk = .error reason) :
      Effect run now child (.data pipe chunk) (child.terminate run now reason)
  | overdue {deadline : ℕ} (armed : child.timer = some deadline) (passed : deadline ≤ now) :
      Effect run now child .overdue (child.terminate run now run.overdue)
  | escalate {deadline : ℕ} (armed : child.escalation = some deadline) (passed : deadline ≤ now) :
      Effect run now child .escalate
        { child with escalation := none, signals := child.signals ++ [(.kill, now)] }
  | error {reason : ε} :
      Effect run now child (.error reason) ({ child with tracked := false, failed := true }.settle
        (.error (child.termination.getD reason)))
  | close {code : Option ℤ} :
      Effect run now child (.close code) ({ child with tracked := false, closed := true }.settle
        (match child.termination with
          | some reason => .error reason
          | none => run.conclude child.output code))

/-- Every callback does one of these. -/
theorem effect_of_step (taken : run.step now child event = some child') :
    Effect run now child event child' := by
  cases event with
  | data pipe chunk =>
      simp only [Run.step] at taken
      split at taken
      · cases taken
      rename_i running
      split at taken
      · rename_i ignored
        cases taken
        rw [Bool.and_eq_true] at ignored
        exact .ignore ignored.1
      split at taken <;> cases taken
      · rename_i collected
        exact .collect collected
      · rename_i refused
        exact .refuse (by simpa using running) refused
  | overdue =>
      simp only [Run.step] at taken
      split at taken <;> cases taken
      rename_i due
      obtain ⟨deadline, armed, passed⟩ := (Option.any_eq_true _ _).mp due
      exact .overdue armed (of_decide_eq_true passed)
  | escalate =>
      simp only [Run.step] at taken
      split at taken <;> cases taken
      rename_i due
      obtain ⟨deadline, armed, passed⟩ := (Option.any_eq_true _ _).mp due
      exact .escalate armed (of_decide_eq_true passed)
  | error reason =>
      simp only [Run.step] at taken
      split at taken <;> cases taken
      exact .error
  | close code =>
      simp only [Run.step] at taken
      split at taken <;> cases taken
      exact .close

theorem sound_start (run : Run β χ ε ρ) (now : ℕ) : Sound run (Child.start run now) where
  timer _ := ⟨rfl, rfl⟩
  calm _ := ⟨rfl, rfl⟩
  stopped terminated := by cases terminated
  settled := rfl
  tracked := rfl
  armed _ _ := rfl
  accepted result settled := by cases settled

/-- An accepted child has closed, so nothing stops it any more. -/
theorem Sound.terminate (sound : Sound run child) (now : ℕ) (reason : ε)
    (running : child.closed = false ∨ child.settled = none) :
    Sound run (child.terminate run now reason) := by
  unfold Child.terminate
  split
  · exact sound
  · rename_i unstopped
    have calm := sound.calm (by simpa using unstopped)
    exact
      { timer := by simp
        calm := by simp
        stopped := fun _ => ⟨now, .inl ⟨by simp [calm.1], .inl rfl⟩⟩
        settled := sound.settled
        tracked := sound.tracked
        armed := by simp
        accepted := fun result settled => by
          have closed := (sound.accepted result settled).1
          rcases running with open' | unsettled
          · rw [open'] at closed
            cases closed
          · cases unsettled.symm.trans settled }

/-- An end that is heard for the first time settles the run and clears its timers. -/
theorem Sound.ending (sound : Sound run child) (failed closed : Bool)
    (ends : (failed || closed) = true) (kept : child.closed = true → closed = true)
    {result : Except ε ρ}
    (accepts : ∀ value, result = .ok value → closed = true ∧ child.termination = none) :
    Sound run ({ child with tracked := false, failed, closed }.settle result) := by
  unfold Child.settle
  split
  · rename_i settled
    have silent : child.timer = none := by
      by_contra armed
      have unsettled := (sound.timer (Option.isSome_iff_ne_none.mpr armed)).2
      simp [unsettled] at settled
    exact
      { timer := by simp [silent]
        calm := sound.calm
        stopped := sound.stopped
        settled := by simpa [ends] using settled
        tracked := by simp [ends]
        armed := fun unsettled => absurd settled (by
          rw [show child.settled = none from unsettled]
          exact Bool.false_ne_true)
        accepted := fun value settled =>
          ⟨kept (sound.accepted value settled).1, (sound.accepted value settled).2⟩ }
  · exact
      { timer := by simp
        calm := fun unstopped => ⟨(sound.calm unstopped).1, rfl⟩
        stopped := fun stopped => by
          obtain ⟨t, ⟨only, _⟩ | ⟨k, late, both, _⟩⟩ := sound.stopped stopped
          · exact ⟨t, .inl ⟨only, .inr ⟨rfl, rfl⟩⟩⟩
          · exact ⟨t, .inr ⟨k, late, both, rfl⟩⟩
        settled := by simp [ends]
        tracked := by simp [ends]
        armed := by simp
        accepted := fun value settled => accepts value (Option.some.inj settled) }

/-- The escalation is armed by the first signal. -/
theorem Sound.escalating (sound : Sound run child) {deadline : ℕ}
    (armed : child.escalation = some deadline) :
    child.termination ≠ none ∧ child.timer = none ∧
      ∃ t, deadline = t + run.graceMs ∧ child.signals = [(.term, t)] := by
  have stopped : child.termination ≠ none := by
    intro unstopped
    rw [(sound.calm unstopped).2] at armed
    cases armed
  refine ⟨stopped, ?_, ?_⟩
  · by_contra running
    exact stopped (sound.timer (Option.isSome_iff_ne_none.mpr running)).1
  · obtain ⟨t, ⟨only, pending | ⟨unarmed, _⟩⟩ | ⟨_, _, _, unarmed⟩⟩ :=
      sound.stopped (Option.isSome_iff_ne_none.mpr stopped)
    · exact ⟨t, Option.some.inj (armed.symm.trans pending), only⟩
    all_goals
      rw [armed] at unarmed
      cases unarmed

theorem Sound.step (sound : Sound run child) (taken : run.step now child event = some child') :
    Sound run child' := by
  cases effect_of_step taken with
  | collect =>
      exact ⟨sound.timer, sound.calm, sound.stopped, sound.settled, sound.tracked, sound.armed,
        sound.accepted⟩
  | ignore => exact sound
  | refuse running _ => exact sound.terminate now _ (.inl running)
  | overdue armed _ => exact sound.terminate now _ (.inr (sound.timer (by simp [armed])).2)
  | escalate armed passed =>
      obtain ⟨stopped, _, t, same, only⟩ := sound.escalating armed
      exact
        { timer := sound.timer
          calm := fun unstopped => absurd unstopped stopped
          stopped := fun _ => ⟨t, .inr ⟨now, same ▸ passed, by simp [only], rfl⟩⟩
          settled := sound.settled
          tracked := sound.tracked
          armed := sound.armed
          accepted := sound.accepted }
  | error =>
      apply sound.ending true child.closed rfl id
      intro value wrong
      cases wrong
  | close =>
      apply sound.ending child.failed true (Bool.or_true _) fun _ => rfl
      intro value accepted
      cases stopped : child.termination with
      | none => exact ⟨rfl, rfl⟩
      | some reason =>
          rw [stopped] at accepted
          cases accepted

/-- A run never tracks its child again, and its child never opens again. -/
theorem tracked_step (taken : run.step now child event = some child') :
    (child'.tracked = true → child.tracked = true) ∧
      (child.closed = true → child'.closed = true) := by
  cases effect_of_step taken with
  | collect | ignore | escalate => exact ⟨id, id⟩
  | refuse | overdue =>
      unfold Child.terminate
      split <;> exact ⟨id, id⟩
  | error | close =>
      unfold Child.settle
      split <;> simp

theorem result_verdict (child : Child β ε ρ) : child.verdict.result = child.settled := by
  cases settled : child.settled <;> cases stopped : child.termination <;>
    simp [Child.verdict, Verdict.result, settled, stopped]

/-- Nothing changes the result of a run that has ended. -/
theorem foldl_ended (result : Except ε ρ) (events : List (Event χ ε)) :
    events.foldl run.judge (.ended result) = .ended result := by
  induction events with
  | nil => rfl
  | cons event rest ih => cases event <;> exact ih

theorem verdict_terminate (now : ℕ) (reason : ε) :
    (child.terminate run now reason).verdict = child.verdict.stop reason := by
  cases settled : child.settled <;> cases stopped : child.termination <;>
    simp [Child.terminate, Child.verdict, Verdict.stop, settled, stopped]

/-- The timers and the flags do not bear on the verdict. -/
theorem verdict_step (taken : run.step now child event = some child') :
    child'.verdict = run.judge child.verdict event := by
  cases effect_of_step taken with
  | collect collected =>
      cases settled : child.settled <;> cases stopped : child.termination <;>
        simp [Child.verdict, Run.judge, settled, stopped, collected]
  | ignore ignored =>
      obtain ⟨reason, stopped⟩ := Option.isSome_iff_exists.mp ignored
      cases settled : child.settled <;> simp [Child.verdict, Run.judge, stopped, settled]
  | refuse _ refused =>
      rw [verdict_terminate]
      cases settled : child.settled <;> cases stopped : child.termination <;>
        simp [Child.verdict, Run.judge, Verdict.stop, settled, stopped, refused]
  | overdue =>
      rw [verdict_terminate]
      rfl
  | escalate =>
      cases settled : child.settled <;> cases stopped : child.termination <;>
        simp [Child.verdict, Run.judge, settled, stopped]
  | error | close =>
      cases settled : child.settled <;> cases stopped : child.termination <;>
        simp [Child.settle, Child.verdict, Run.judge, settled, stopped]

/-- The callbacks of a run lead to what the verdicts tell. -/
theorem sound_play {events : List (ℕ × Event χ ε)} (sound : Sound run child)
    (played : run.play child events = some child') :
    Sound run child' ∧ child'.verdict = (events.map (·.2)).foldl run.judge child.verdict := by
  induction events generalizing child with
  | nil =>
      cases played
      exact ⟨sound, rfl⟩
  | cons event rest ih =>
      rw [Run.play, List.foldlM_cons] at played
      obtain ⟨next, taken, later⟩ := Option.bind_eq_some_iff.mp played
      have continued := ih (sound.step taken) later
      rw [verdict_step taken] at continued
      exact continued

/-- A promise stays settled. -/
theorem settled_play {events : List (ℕ × Event χ ε)} (sound : Sound run child)
    (settled : child.settled.isSome = true) (played : run.play child events = some child') :
    child'.settled = child.settled := by
  obtain ⟨result, done⟩ := Option.isSome_iff_exists.mp settled
  have ended : child.verdict = .ended result := by simp [Child.verdict, done]
  rw [← result_verdict child', (sound_play sound played).2, ended, foldl_ended, done]
  rfl

/-- No call settles a settled child again. -/
theorem settled_step {now : ℕ} {event : Event χ ε} (sound : Sound run child)
    (settled : child.settled.isSome = true) (taken : run.step now child event = some child') :
    child'.settled = child.settled := by
  have played : run.play child [(now, event)] = some child' := by
    rw [Run.play, List.foldlM_cons, taken]
    rfl
  exact settled_play sound settled played

/-- An unsettled child is not late. -/
structure Timely (run : Run β χ ε ρ) (lag patience begun now : ℕ) (child : Child β ε ρ) :
    Prop where
  timer : ∀ deadline, child.timer = some deadline → deadline = begun + run.timeoutMs
  stopped : child.settled = none → ∀ t, (.term, t) ∈ child.signals →
    t ≤ begun + run.timeoutMs + lag
  killed : child.settled = none → ∀ k, (.kill, k) ∈ child.signals →
    k ≤ begun + run.timeoutMs + lag + run.graceMs + lag
  due : child.settled = none → ∀ deadline, child.due lag patience = some deadline → now ≤ deadline

section Timely

variable {lag patience begun later : ℕ}

theorem timely_start (run : Run β χ ε ρ) (lag patience now : ℕ) :
    Timely run lag patience now now (Child.start run now) where
  timer deadline armed := (Option.some.inj armed).symm
  stopped _ t sent := by cases sent
  killed _ k sent := by cases sent
  due _ deadline armed := by
    cases armed
    exact Nat.le_add_right_of_le (Nat.le_add_right ..)

/-- Time passes no further than to the next deadline. -/
theorem Timely.tick (timely : Timely run lag patience begun now child)
    (prompt : child.settled = none → ∀ deadline, child.due lag patience = some deadline →
      later ≤ deadline) : Timely run lag patience begun later child :=
  ⟨timely.timer, timely.stopped, timely.killed, prompt⟩

/-- A run that stops its child does so before its timer is late. -/
theorem Timely.terminate (sound : Sound run child)
    (timely : Timely run lag patience begun now child) (reason : ε) :
    Timely run lag patience begun now (child.terminate run now reason) := by
  unfold Child.terminate
  split
  · exact timely
  · rename_i unstopped
    have fresh : child.termination = none := by simpa using unstopped
    have calm := sound.calm fresh
    exact
      { timer := by simp
        stopped := fun unsettled t sent => by
          obtain ⟨deadline, armed⟩ := Option.isSome_iff_exists.mp (sound.armed unsettled fresh)
          have inTime := timely.due unsettled (deadline + lag) (by simp [Child.due, armed])
          rw [timely.timer deadline armed] at inTime
          have same : t = now := by simpa [calm.1] using sent
          omega
        killed := fun _ k sent => by simp [calm.1] at sent
        due := fun _ deadline armed => by
          have same : now + run.graceMs + lag = deadline := by simpa [Child.due] using armed
          omega }

/-- Nothing is due once the run has settled. -/
theorem Timely.ending (timely : Timely run lag patience begun now child) (failed closed : Bool)
    (result : Except ε ρ) :
    Timely run lag patience begun now
      ({ child with tracked := false, failed, closed }.settle result) := by
  unfold Child.settle
  split
  · exact ⟨timely.timer, timely.stopped, timely.killed, timely.due⟩
  · exact ⟨by simp, by simp, by simp, by simp⟩

theorem Timely.step (sound : Sound run child)
    (timely : Timely run lag patience begun now child)
    (taken : run.step now child event = some child') :
    Timely run lag patience begun now child' := by
  cases effect_of_step taken with
  | collect => exact ⟨timely.timer, timely.stopped, timely.killed, timely.due⟩
  | ignore => exact timely
  | refuse => exact timely.terminate sound _
  | overdue => exact timely.terminate sound _
  | @escalate deadline armed _ =>
      obtain ⟨_, silent, t, same, only⟩ := sound.escalating armed
      exact
        { timer := timely.timer
          stopped := fun unsettled t' sent => by
            have old : (Signal.term, t') ∈ child.signals := by simpa using sent
            exact timely.stopped unsettled t' old
          killed := fun unsettled k sent => by
            have inTime := timely.due unsettled (deadline + lag)
              (by simp [Child.due, silent, armed])
            have begins := timely.stopped unsettled t (by simp [only])
            have now' : k = now := by simpa [only] using sent
            omega
          due := fun _ deadline' next => by
            have later : now + patience = deadline' := by simpa [Child.due, silent, only] using next
            omega }
  | error => exact timely.ending true child.closed _
  | close => exact timely.ending child.failed true _

/-- An unsettled run has not used up its time, its grace, the lags of both timers and the patience
of the system. -/
theorem Timely.bound (sound : Sound run child) (timely : Timely run lag patience begun now child)
    (unsettled : child.settled = none) :
    now ≤ begun + run.timeoutMs + lag + run.graceMs + lag + patience := by
  cases stopped : child.termination with
  | none =>
      obtain ⟨deadline, armed⟩ := Option.isSome_iff_exists.mp (sound.armed unsettled stopped)
      have inTime := timely.due unsettled (deadline + lag) (by simp [Child.due, armed])
      rw [timely.timer deadline armed] at inTime
      omega
  | some reason =>
      have silent : child.timer = none := by
        by_contra running
        have unstopped := (sound.timer (Option.isSome_iff_ne_none.mpr running)).1
        simp [unstopped] at stopped
      obtain ⟨t, ⟨only, pending | ⟨_, ended⟩⟩ | ⟨k, _, both, unarmed⟩⟩ :=
        sound.stopped (by simp [stopped])
      · have inTime := timely.due unsettled (t + run.graceMs + lag)
          (by simp [Child.due, silent, pending])
        have begins := timely.stopped unsettled t (by simp [only])
        omega
      · simp [unsettled] at ended
      · have inTime := timely.due unsettled (k + patience)
          (by simp [Child.due, silent, unarmed, both])
        have ends := timely.killed unsettled k (by simp [both])
        omega

end Timely

/-- A run whose output never makes it stop sends no signal before its timer and none once it has
settled. -/
structure Unforced (run : Run β χ ε ρ) (begun : ℕ) (child : Child β ε ρ) : Prop where
  timer : ∀ deadline, child.timer = some deadline → deadline = begun + run.timeoutMs
  late : ∀ t, (.term, t) ∈ child.signals → begun + run.timeoutMs ≤ t
  reason : ∀ reason, child.termination = some reason → reason = run.overdue
  reported : ∀ reason result, child.termination = some reason → child.settled = some result →
    result = .error reason
  quiet : child.settled.isSome = true → child.escalation = none

/-- The run takes whatever its child writes. -/
def Run.Lossless (run : Run β χ ε ρ) : Prop :=
  ∀ output pipe chunk, ∃ next, run.collect output pipe chunk = .ok next

section Unforced

variable {begun : ℕ}

theorem unforced_start (run : Run β χ ε ρ) (now : ℕ) : Unforced run now (Child.start run now) where
  timer deadline armed := (Option.some.inj armed).symm
  late t sent := by cases sent
  reason reason stopped := by cases stopped
  reported reason result stopped := by cases stopped
  quiet settled := by cases settled

theorem Unforced.ending (unforced : Unforced run begun child) (failed closed : Bool)
    {result : Except ε ρ}
    (told : ∀ reason, child.termination = some reason → result = .error reason) :
    Unforced run begun ({ child with tracked := false, failed, closed }.settle result) := by
  unfold Child.settle
  split
  · exact ⟨unforced.timer, unforced.late, unforced.reason, unforced.reported, unforced.quiet⟩
  · exact
      { timer := by simp
        late := unforced.late
        reason := unforced.reason
        reported := fun reason _ stopped settled =>
          (Option.some.inj settled).symm.trans (told reason stopped)
        quiet := fun _ => rfl }

theorem Unforced.step (lossless : run.Lossless) (sound : Sound run child)
    (unforced : Unforced run begun child) (taken : run.step now child event = some child') :
    Unforced run begun child' := by
  cases effect_of_step taken with
  | collect =>
      exact ⟨unforced.timer, unforced.late, unforced.reason, unforced.reported, unforced.quiet⟩
  | ignore => exact unforced
  | @refuse pipe chunk _ _ refused =>
      obtain ⟨next, collected⟩ := lossless child.output pipe chunk
      cases collected.symm.trans refused
  | overdue armed passed =>
      rw [unforced.timer _ armed] at passed
      obtain ⟨unstopped, unsettled⟩ := sound.timer (by simp [armed])
      have calm := sound.calm unstopped
      simp only [Child.terminate, unstopped, Option.isSome_none, Bool.false_eq_true, if_false]
      exact
        { timer := by simp
          late := fun t sent => by
            have same : t = now := by simpa [calm.1] using sent
            exact same ▸ passed
          reason := fun reason stopped => (Option.some.inj stopped).symm
          reported := by simp [unsettled]
          quiet := by simp [unsettled] }
  | escalate =>
      exact
        { timer := unforced.timer
          late := fun t sent => unforced.late t (by simpa using sent)
          reason := unforced.reason
          reported := unforced.reported
          quiet := fun _ => rfl }
  | error =>
      apply unforced.ending
      intro first stopped
      rw [stopped, Option.getD_some]
  | close =>
      apply unforced.ending
      intro first stopped
      rw [stopped]

/-- A settled run leaves its child alone. -/
theorem Unforced.silent (lossless : run.Lossless) (sound : Sound run child)
    (unforced : Unforced run begun child) (settled : child.settled.isSome = true)
    (taken : run.step now child event = some child') : child'.signals = child.signals := by
  cases effect_of_step taken with
  | collect | ignore => rfl
  | @refuse pipe chunk _ _ refused =>
      obtain ⟨next, collected⟩ := lossless child.output pipe chunk
      cases collected.symm.trans refused
  | overdue armed _ =>
      have unsettled := (sound.timer (by simp [armed])).2
      simp [unsettled] at settled
  | escalate armed _ =>
      rw [unforced.quiet settled] at armed
      cases armed
  | error | close => simp [Child.settle, settled]

theorem unforced_play {events : List (ℕ × Event χ ε)} (lossless : run.Lossless)
    (sound : Sound run child) (unforced : Unforced run begun child)
    (played : run.play child events = some child') : Unforced run begun child' := by
  induction events generalizing child with
  | nil =>
      cases played
      exact unforced
  | cons event rest ih =>
      rw [Run.play, List.foldlM_cons] at played
      obtain ⟨next, taken, later⟩ := Option.bind_eq_some_iff.mp played
      exact ih (sound.step taken) (unforced.step lossless sound taken) later

/-- Whatever is still called back, a settled run leaves its child alone. -/
theorem Unforced.final {events : List (ℕ × Event χ ε)} (lossless : run.Lossless)
    (sound : Sound run child) (unforced : Unforced run begun child)
    (settled : child.settled.isSome = true) (played : run.play child events = some child') :
    child'.signals = child.signals := by
  induction events generalizing child with
  | nil =>
      cases played
      rfl
  | cons event rest ih =>
      rw [Run.play, List.foldlM_cons] at played
      obtain ⟨next, taken, later⟩ := Option.bind_eq_some_iff.mp played
      have kept : next.settled = child.settled := settled_step sound settled taken
      rw [ih (sound.step taken) (unforced.step lossless sound taken) (by rw [kept, settled]) later,
        unforced.silent lossless sound settled taken]

end Unforced

end Supervision
