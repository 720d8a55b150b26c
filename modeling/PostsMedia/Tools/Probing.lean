import PostsMedia.Tools.Ffmpeg

namespace PostsMedia.Tools

open Supervision

/-- The child of `FfprobeService.probe`. Both outputs are read up to the limit. -/
def ffprobe (timeoutMs maxOutputBytes : Option ℕ) :
    Run (List Char × List Char) Bytes ProbeError ProbeResult where
  empty := ([], [])
  collect output pipe chunk :=
    let limit := maxOutputBytes.getD 1000000
    match pipe with
    | .stdout =>
        match append limit output.1 chunk with
        | some stdout => .ok (stdout, output.2)
        | none => .error .outputLimit
    | .stderr =>
        match append limit output.2 chunk with
        | some stderr => .ok (output.1, stderr)
        | none => .error .outputLimit
  readsOn := false
  overdue := .timeout
  conclude output code := closed { stdout := output.1, stderr := output.2 } code
  timeoutMs := timerDelay (timeoutMs.getD 10000)
  graceMs := 5000

/-- The callback of an event, or of the escalation. -/
def callback : Option ProbeEvent → Event Bytes ProbeError
  | none => .escalate
  | some (.stdout chunk) => .data .stdout chunk
  | some (.stderr chunk) => .data .stderr chunk
  | some .timeout => .overdue
  | some (.error message) => .error (.spawn message)
  | some (.close code) => .close code

/-- The local variables that decide the outcome of a probe. -/
def probeState (child : Child (List Char × List Char) ProbeError ProbeResult) : ProbeState where
  stdout := child.output.1
  stderr := child.output.2
  terminationError := child.termination
  settled := child.settled

/-- The escalation does not bear on the outcome. -/
def advance (limit : ℕ) (state : ProbeState) : Option ProbeEvent → ProbeState
  | none => state
  | some event => step limit state event

section Refinement

variable {timeoutMs maxOutputBytes : Option ℕ} {now : Time}
  {child child' : Child (List Char × List Char) ProbeError ProbeResult}

theorem probeState_terminate (reason : ProbeError) :
    probeState (child.terminate (ffprobe timeoutMs maxOutputBytes) now reason) =
      terminate reason (probeState child) := by
  unfold Child.terminate terminate
  by_cases stopped : child.termination.isSome = true <;> simp [probeState, stopped]

/-- The timers and the signals do not bear on the outcome. -/
theorem probeState_step (sound : Sound (ffprobe timeoutMs maxOutputBytes) child)
    {event : Option ProbeEvent}
    (taken : (ffprobe timeoutMs maxOutputBytes).step now child (callback event) = some child') :
    probeState child' = advance (maxOutputBytes.getD 1000000) (probeState child) event := by
  cases event with
  | none =>
      simp only [callback, Run.step] at taken
      split at taken <;> cases taken
      rfl
  | some event =>
      cases event with
      | stdout chunk | stderr chunk =>
          simp only [callback, Run.step] at taken
          split at taken
          · cases taken
          rw [show (ffprobe timeoutMs maxOutputBytes).readsOn = false from rfl, Bool.not_false,
            Bool.and_true] at taken
          simp only [advance, step]
          by_cases stopped : child.termination.isSome = true
          · rw [if_pos stopped] at taken
            cases taken
            rw [if_pos (show (probeState child).terminationError.isSome = true from stopped)]
          · rw [if_neg stopped] at taken
            cases taken
            rw [if_neg (show ¬(probeState child).terminationError.isSome = true from stopped)]
            simp only [ffprobe, probeState]
            cases append (maxOutputBytes.getD 1000000) _ chunk with
            | none => exact probeState_terminate _
            | some text => rfl
      | timeout =>
          simp only [callback, Run.step] at taken
          split at taken <;> cases taken
          rename_i due
          obtain ⟨deadline, armed, _⟩ := (Option.any_eq_true _ _).mp due
          have unsettled := (sound.timer (by simp [armed])).2
          rw [probeState_terminate]
          simp [advance, step, probeState, unsettled, ffprobe]
      | error message =>
          simp only [callback, Run.step] at taken
          split at taken <;> cases taken
          by_cases settled : child.settled.isSome = true <;>
            simp [advance, step, probeState, Child.settle, settled]
      | close code =>
          simp only [callback, Run.step] at taken
          split at taken <;> cases taken
          by_cases settled : child.settled.isSome = true
          · simp [advance, step, probeState, Child.settle, settled]
          · cases stopped : child.termination <;>
              simp [advance, step, probeState, Child.settle, settled, stopped, closed, ffprobe]

/-- The run of a probe follows the events that decide its outcome. -/
theorem probeState_play {events : List (Time × Option ProbeEvent)}
    (sound : Sound (ffprobe timeoutMs maxOutputBytes) child)
    (played : (ffprobe timeoutMs maxOutputBytes).play child
      (events.map fun event => (event.1, callback event.2)) = some child') :
    probeState child' = (events.filterMap (·.2)).foldl (step (maxOutputBytes.getD 1000000))
      (probeState child) := by
  induction events generalizing child with
  | nil =>
      cases played
      rfl
  | cons event rest ih =>
      rw [Run.play, List.map_cons, List.foldlM_cons] at played
      obtain ⟨next, taken, later⟩ := Option.bind_eq_some_iff.mp played
      rw [ih (sound.step taken) later, probeState_step sound taken]
      obtain ⟨time, _ | event⟩ := event <;> rfl

end Refinement

/-- What holds of every run of the prober. -/
structure ProbeLaw (timeoutMs maxOutputBytes : Option ℕ)
    (events : List (Time × Option ProbeEvent))
    (child : Child (List Char × List Char) ProbeError ProbeResult) : Prop where
  outcome : child.settled = probe (maxOutputBytes.getD 1000000) (events.filterMap (·.2))
  signals : child.signals = [] ∨ ∃ t, child.signals = [(.term, t)] ∨
    ∃ k, t + 5000 ≤ k ∧ child.signals = [(.term, t), (.kill, k)]
  accepted : ∀ result, child.settled = some (.ok result) → child.signals = []
  tracked : child.tracked = child.settled.isNone
  final : ∀ more later, (ffprobe timeoutMs maxOutputBytes).play child more = some later →
    child.settled.isSome = true → later.settled = child.settled

/-- Whatever the child and the timers do, a probe settles as the events on its outputs tell, and an
accepted child was left alone. -/
theorem ffprobe_probeLaw (timeoutMs maxOutputBytes : Option ℕ) (begun : Time)
    (events : List (Time × Option ProbeEvent))
    (child : Child (List Char × List Char) ProbeError ProbeResult)
    (played : (ffprobe timeoutMs maxOutputBytes).play
      (.start (ffprobe timeoutMs maxOutputBytes) begun)
      (events.map fun event => (event.1, callback event.2)) = some child) :
    ProbeLaw timeoutMs maxOutputBytes events child := by
  have fresh := sound_start (ffprobe timeoutMs maxOutputBytes) begun
  have sound := (sound_play fresh played).1
  have followed := probeState_play fresh played
  exact
    { outcome := congrArg ProbeState.settled followed
      signals := by
        cases stopped : child.termination with
        | none => exact .inl (sound.calm stopped).1
        | some reason =>
            obtain ⟨t, ⟨only, _⟩ | ⟨k, later, both, _⟩⟩ := sound.stopped (by simp [stopped])
            · exact .inr ⟨t, .inl only⟩
            · exact .inr ⟨t, .inr ⟨k, later, both⟩⟩
      accepted := fun result settled => (sound.calm (sound.accepted result settled).2).1
      tracked := by rw [sound.tracked, ← sound.settled, Option.not_isSome]
      final := fun more later continued settled => settled_play sound settled continued }

/-- Output past the limit stops the child, and its later end tells no more. -/
def flooded : List (Time × Option ProbeEvent) :=
  [(5, some (.stdout [0x7B, 0x7D])), (9, some (.stderr [0x21, 0x21, 0x21])), (5009, none),
    (5010, some (.close (some 0)))]

theorem ffprobe_probeLaw_flooded : ∃ child,
    (ffprobe none (some 2)).play (.start (ffprobe none (some 2)) 0)
      (flooded.map fun event => (event.1, callback event.2)) = some child ∧
    ProbeLaw none (some 2) flooded child ∧ child.signals = [(.term, 9), (.kill, 5009)] := by
  refine ⟨_, rfl, ffprobe_probeLaw none (some 2) 0 flooded _ rfl, ?_⟩
  decide +kernel

end PostsMedia.Tools
