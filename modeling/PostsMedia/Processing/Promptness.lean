import PostsMedia.Library.Clock
import PostsMedia.Processing.Shutdown
import PostsMedia.Tools.Probing

namespace PostsMedia.Shutdown

open Supervision

variable {ι χ : Type} {β ε ρ : ι → Type}

/-- The deadline of the race. -/
def Call.deadline : Call ι → Option Time
  | .waiting _ began => some (began + graceMs)
  | _ => none

/-- The timers of the runs and of the race. -/
def clock : Clock (Fleet β ε ρ) (Event χ ε) where
  set s now := { s with now }
  deadline s
    | .child id .overdue => (s.children id).bind (·.timer)
    | .child id .escalate => (s.children id).bind (·.escalation)
    | .resume => s.call.deadline
    | _ => none

/-- Until this time no timer lags more than the event loop may, and a run has heard of the end of
its child within the patience of the system once the process was killed or has gone. -/
structure InTime [DecidableEq ι] (runs : (id : ι) → Run (β id) χ (ε id) (ρ id))
    (lag patience : Time) (s : Fleet β ε ρ) (later : Time) : Prop where
  timers : clock.Punctual (machine runs) lag s later
  gone : ∀ id child, s.children id = some child → child.settled = none →
    ∀ e, s.exited id = some e → later ≤ e + patience
  killed : ∀ id child, s.children id = some child → child.settled = none →
    ∀ time, (.kill, time) ∈ child.signals ∨ (id, .kill, time) ∈ s.sent → later ≤ time + patience

/-- Time passes no further than this. -/
def Prompt [DecidableEq ι] (runs : (id : ι) → Run (β id) χ (ε id) (ρ id)) (lag patience : Time)
    (s : Fleet β ε ρ) : Event χ ε → Prop
  | .tick duration => InTime runs lag patience s (s.now + duration)
  | _ => True

/-- What punctual timers come to. -/
structure OnTime (lag patience : Time) (s : Fleet β ε ρ) (later : Time) : Prop where
  due : ∀ id child, s.children id = some child → child.settled = none →
    ∀ deadline, child.due lag patience = some deadline → later ≤ deadline
  gone : ∀ id child, s.children id = some child → child.settled = none →
    ∀ e, s.exited id = some e → later ≤ e + patience
  killed : ∀ id child, s.children id = some child → child.settled = none →
    ∀ time, (id, .kill, time) ∈ s.sent → later ≤ time + patience
  race : ∀ snapshot began, s.call = .waiting snapshot began → later ≤ began + graceMs + lag

/-- Nothing is late. -/
structure Timely (runs : (id : ι) → Run (β id) χ (ε id) (ρ id)) (lag patience : Time)
    (s : Fleet β ε ρ) : Prop where
  runs : ∀ id child, s.children id = some child →
    Supervision.Timely (runs id) lag patience (s.begun id) s.now child
  inTime : OnTime lag patience s s.now
  returned : ∀ began ended, s.call = .returned began ended → ended ≤ began + graceMs + lag

variable {runs : (id : ι) → Run (β id) χ (ε id) (ρ id)} {lag patience : Time} {s t : Fleet β ε ρ}
  {id : ι}

section Timers

variable [DecidableEq ι] {later : Time}

/-- The timers of a child call back. -/
theorem due_of_inTime (prompt : InTime runs lag patience s later)
    {child : Child (β id) (ε id) (ρ id)} (present : s.children id = some child)
    (unsettled : child.settled = none) {deadline : Time}
    (due : child.due lag patience = some deadline) : later ≤ deadline := by
  have timer (time : Time) (armed : child.timer = some time) : later ≤ time + lag := by
    apply prompt.timers (.child id .overdue) time (by simp [clock, present, armed])
    simp [machine, step, stepChild, clock, present, Run.step, armed]
  have escalation (time : Time) (armed : child.escalation = some time) : later ≤ time + lag := by
    apply prompt.timers (.child id .escalate) time (by simp [clock, present, armed])
    simp [machine, step, stepChild, clock, present, Run.step, armed]
  simp only [Child.due, Option.or_eq_some_iff, Option.map_eq_some_iff] at due
  rcases due with ⟨time, armed, rfl⟩ | ⟨-, ⟨time, armed, rfl⟩ | ⟨-, signal, found, rfl⟩⟩
  · exact timer time armed
  · exact escalation time armed
  · obtain ⟨kind, time⟩ := signal
    obtain rfl : kind = .kill := by simpa using List.find?_some found
    exact prompt.killed id child present unsettled time (.inl (List.mem_of_find?_eq_some found))

/-- The race calls back. -/
theorem race_of_inTime (prompt : InTime runs lag patience s later) {snapshot : List ι}
    {began : Time} (waiting : s.call = .waiting snapshot began) :
    later ≤ began + graceMs + lag := by
  apply prompt.timers .resume (began + graceMs) (by simp [clock, waiting, Call.deadline])
  simp [machine, step, stepResume, clock, waiting]

theorem onTime_of_inTime (prompt : InTime runs lag patience s later) :
    OnTime lag patience s later where
  due _ _ present unsettled _ due := due_of_inTime prompt present unsettled due
  gone := prompt.gone
  killed id child present unsettled time sent :=
    prompt.killed id child present unsettled time (.inr sent)
  race _ _ waiting := race_of_inTime prompt waiting

theorem timely_tick (timely : Timely runs lag patience s) {duration : Time}
    (prompt : InTime runs lag patience s (s.now + duration)) :
    Timely runs lag patience { s with now := s.now + duration } := by
  have onTime := onTime_of_inTime prompt
  exact
    { runs := fun id child present =>
        (timely.runs id child present).tick (onTime.due id child present)
      inTime := ⟨onTime.due, onTime.gone, onTime.killed, onTime.race⟩
      returned := timely.returned }

end Timers

theorem timely_shutdown (timely : Timely runs lag patience s) (taken : stepShutdown s = some t) :
    Timely runs lag patience t := by
  unfold stepShutdown at taken
  split at taken
  · rename_i idle
    split at taken <;> cases taken
    · exact
        { runs := timely.runs
          inTime := ⟨timely.inTime.due, timely.inTime.gone, timely.inTime.killed,
            fun _ _ waiting => by cases waiting⟩
          returned := fun _ _ returned => by
            cases returned
            exact Nat.le_add_right_of_le (Nat.le_add_right _ _) }
    · exact
        { runs := timely.runs
          inTime :=
            { due := timely.inTime.due
              gone := timely.inTime.gone
              killed := fun id child present unsettled time killed => by
                rcases mem_signalled.mp killed with old | ⟨_, wrong, _⟩
                · exact timely.inTime.killed id child present unsettled time old
                · cases wrong
              race := fun _ _ waiting => by
                cases waiting
                exact Nat.le_add_right_of_le (Nat.le_add_right _ _) }
          returned := fun _ _ returned => by cases returned }
  · cases taken

/-- The race ends in time, and what is killed then gets its patience. -/
theorem timely_resume (timely : Timely runs lag patience s) (taken : stepResume s = some t) :
    Timely runs lag patience t := by
  unfold stepResume at taken
  split at taken
  · rename_i snapshot began waiting
    split at taken <;> cases taken
    exact
      { runs := timely.runs
        inTime :=
          { due := timely.inTime.due
            gone := timely.inTime.gone
            killed := fun id child present unsettled time killed => by
              rcases mem_signalled.mp killed with old | ⟨_, _, rfl⟩
              · exact timely.inTime.killed id child present unsettled time old
              · exact Nat.le_add_right _ _
            race := fun _ _ waiting => by cases waiting }
        returned := fun _ _ returned => by
          cases returned
          exact timely.inTime.race snapshot began waiting }
  · cases taken

section Steps

variable [DecidableEq ι]

theorem timely_spawn (sound : Sound runs s) (timely : Timely runs lag patience s)
    (taken : stepSpawn runs s id = some t) : Timely runs lag patience t := by
  unfold stepSpawn at taken
  split at taken <;> cases taken
  rename_i missing
  obtain ⟨there, _, unsent⟩ := sound.absent id missing
  have kept {α : ι → Type} (f : (other : ι) → α other) (value : α id) (other : ι)
      (different : other ≠ id) : Function.update f id value other = f other :=
    Function.update_of_ne different _ _
  have young := timely_start (runs id) lag patience s.now
  exact
    { runs := fun other child present => by
        by_cases same : other = id
        · subst same
          simp only [Function.update_self, Option.some.injEq] at present ⊢
          exact present ▸ young
        · have old := timely.runs other child ((kept s.children _ other same).symm.trans present)
          change Supervision.Timely (runs other) lag patience
            (Function.update s.begun id s.now other) s.now child
          rw [kept s.begun _ other same]
          exact old
      inTime :=
        { due := fun other child present unsettled deadline armed => by
            by_cases same : other = id
            · subst same
              simp only [Function.update_self, Option.some.injEq] at present
              subst present
              exact young.due rfl deadline armed
            · exact timely.inTime.due other child
                ((kept s.children _ other same).symm.trans present) unsettled deadline armed
          gone := fun other child present unsettled e left => by
            have different : other ≠ id := by
              rintro rfl
              cases there.symm.trans left
            exact timely.inTime.gone other child
              ((kept s.children _ other different).symm.trans present) unsettled e left
          killed := fun other child present unsettled time killed => by
            have different : other ≠ id := by
              rintro rfl
              exact unsent _ _ killed
            exact timely.inTime.killed other child
              ((kept s.children _ other different).symm.trans present) unsettled time killed
          race := timely.inTime.race }
      returned := timely.returned }

theorem timely_exit (timely : Timely runs lag patience s) (taken : stepExit s id = some t) :
    Timely runs lag patience t := by
  unfold stepExit at taken
  split at taken <;> cases taken
  exact
    { runs := timely.runs
      inTime :=
        { due := timely.inTime.due
          gone := fun other child present unsettled e left => by
            by_cases same : other = id
            · subst same
              simp only [Function.update_self, Option.some.injEq] at left
              subst left
              exact Nat.le_add_right _ _
            · exact timely.inTime.gone other child present unsettled e
                ((Function.update_of_ne same _ _).symm.trans left)
          killed := timely.inTime.killed
          race := timely.inTime.race }
      returned := timely.returned }

theorem timely_child {event : Supervision.Event χ (ε id)} (sound : Sound runs s)
    (timely : Timely runs lag patience s) (taken : stepChild runs s id event = some t) :
    Timely runs lag patience t := by
  unfold stepChild at taken
  split at taken
  · cases taken
  rename_i child present
  obtain ⟨child', moved, rfl⟩ := Option.map_eq_some_iff.mp taken
  have next := (timely.runs id child present).step (sound.children id child present) moved
  have earlier (unsettled : child'.settled = none) : child.settled = none := by
    by_contra settled
    have stays := settled_step (sound.children id child present)
      (Option.isSome_iff_ne_none.mpr settled) moved
    exact settled (stays.symm.trans unsettled)
  have kept (other : ι) (different : other ≠ id) :
      Function.update s.children id (some child') other = s.children other :=
    Function.update_of_ne different _ _
  exact
    { runs := fun other old present' => by
        by_cases same : other = id
        · subst same
          simp only [Function.update_self, Option.some.injEq] at present'
          exact present' ▸ next
        · exact timely.runs other old ((kept other same).symm.trans present')
      inTime :=
        { due := fun other old present' unsettled => by
            by_cases same : other = id
            · subst same
              simp only [Function.update_self, Option.some.injEq] at present'
              subst present'
              exact next.due unsettled
            · exact timely.inTime.due other old ((kept other same).symm.trans present') unsettled
          gone := fun other old present' unsettled => by
            by_cases same : other = id
            · subst same
              simp only [Function.update_self, Option.some.injEq] at present'
              subst present'
              exact timely.inTime.gone other child present (earlier unsettled)
            · exact timely.inTime.gone other old ((kept other same).symm.trans present') unsettled
          killed := fun other old present' unsettled => by
            by_cases same : other = id
            · subst same
              simp only [Function.update_self, Option.some.injEq] at present'
              subst present'
              exact timely.inTime.killed other child present (earlier unsettled)
            · exact timely.inTime.killed other old ((kept other same).symm.trans present') unsettled
          race := timely.inTime.race }
      returned := timely.returned }

theorem timely_of_reachable (reached : (machine runs).Reachable (Prompt runs lag patience) s) :
    Timely runs lag patience s := by
  apply reached.strengthen (Sound runs) fun s reached => sound_of_reachable reached
  · rintro s ⟨none, there, _, idle, _, _⟩
    exact
      { runs := fun id child present => by cases (none id).symm.trans present
        inTime :=
          { due := fun id child present => by cases (none id).symm.trans present
            gone := fun id child present => by cases (none id).symm.trans present
            killed := fun id child present => by cases (none id).symm.trans present
            race := fun _ _ waiting => by cases idle.symm.trans waiting }
        returned := fun _ _ returned => by cases idle.symm.trans returned }
  · intro s event t sound _ admitted taken timely
    cases event with
    | tick duration =>
        cases taken
        exact timely_tick timely admitted
    | spawn id => exact timely_spawn sound timely taken
    | exit id => exact timely_exit timely taken
    | child id event => exact timely_child sound timely taken
    | shutdown => exact timely_shutdown timely taken
    | resume => exact timely_resume timely taken

end Steps

/-- One run of one of the tools of the worker. -/
inductive ToolRun
  | ffmpeg (serial : ℕ) (timeoutMs : Option ℕ)
  | ffprobe (serial : ℕ) (timeoutMs maxOutputBytes : Option ℕ)
deriving DecidableEq

namespace ToolRun

abbrev Output : ToolRun → Type
  | .ffmpeg .. => Text
  | .ffprobe .. => List Char × List Char

abbrev Failure : ToolRun → Type
  | .ffmpeg .. => Tools.RunError
  | .ffprobe .. => Tools.ProbeError

abbrev Result : ToolRun → Type
  | .ffmpeg .. => Unit
  | .ffprobe .. => Tools.ProbeResult

def run : (id : ToolRun) → Run id.Output Bytes id.Failure id.Result
  | .ffmpeg _ timeoutMs => Tools.ffmpeg timeoutMs
  | .ffprobe _ timeoutMs maxOutputBytes => Tools.ffprobe timeoutMs maxOutputBytes

end ToolRun

section Stubborn

variable {now lag patience : Time} {child child' : Child Text Tools.RunError Unit}
  {call call' : Call ToolRun} {tracked tracked' : List ToolRun}
  {sent sent' : List (ToolRun × Signal × Time)}

end Stubborn

end PostsMedia.Shutdown
