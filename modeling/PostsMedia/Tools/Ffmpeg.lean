import PostsMedia.Domain.Basic
import PostsMedia.Library.Supervision
import PostsMedia.Tools.Ffprobe

namespace PostsMedia.Tools

open Utf8 Supervision

inductive RunError
  | timeout
  | spawn (message : String)
  | failed (code : Option Int) (stderr : Text)

def RunError.message : RunError → Text
  | .timeout => Text.ofString "PROCESSING_TIMEOUT"
  | .spawn message => Text.ofString message
  | .failed code stderr =>
      let status := (code.map toString).getD "UNKNOWN"
      Text.ofString s!"FFMPEG_FAILED_{status}: " ++ stderr

/-- What the event loop tells `FfmpegService.run`. -/
abbrev RunEvent := Event Bytes RunError

/-- The call `slice(-2000)`. -/
def lastUnits (text : Text) : Text := text.rtake 2000

/-- The child of `FfmpegService.run`. Its standard output is not read. Each chunk is decoded on its
own. -/
def ffmpeg (timeoutMs : Option ℕ) : Run Text Bytes RunError Unit where
  empty := []
  collect stderr pipe chunk :=
    match pipe with
    | .stdout => .ok stderr
    | .stderr => .ok (lastUnits (stderr ++ units (decode chunk)))
  readsOn := true
  overdue := .timeout
  conclude stderr code := if code = some 0 then .ok () else .error (.failed code stderr)
  timeoutMs := timerDelay (timeoutMs.getD 600000)
  graceMs := 5000

/-- What the end of a child makes of the standard error. -/
def endOf : RunEvent → Option (Text → Except RunError Unit)
  | .error reason => some fun _ => .error reason
  | .close code => some fun stderr =>
      if code = some 0 then .ok () else .error (.failed code (lastUnits stderr))
  | _ => none

def isOverdue : RunEvent → Bool
  | .overdue => true
  | _ => false

/-- What a child wrote to its standard error. -/
def stderrOf : List RunEvent → Text
  | [] => []
  | .data .stderr chunk :: rest => units (decode chunk) ++ stderrOf rest
  | _ :: rest => stderrOf rest

/-- What the callbacks of a run amount to. A run that was overdue before its end has timed out, and
any other run ends as its child tells. -/
def runOutcome (events : List RunEvent) : Option (Except RunError Unit) :=
  let before := events.takeWhile fun event => (endOf event).isNone
  (events.findSome? endOf).map fun conclude =>
    if before.any isOverdue then .error .timeout else conclude (stderrOf before)

section Outcome

variable {timeoutMs : Option ℕ} {events : List RunEvent}

/-- What is cut off early would have been cut off later. -/
theorem lastUnits_append (text more : Text) :
    lastUnits (lastUnits text ++ more) = lastUnits (text ++ more) := by
  simp only [lastUnits, List.rtake_eq_reverse_take_reverse, List.reverse_append,
    List.reverse_reverse, List.take_append, List.take_take]
  congr 3
  simp only [List.length_reverse]
  omega

/-- A stopped child only has to end. -/
theorem foldl_stopped (events : List RunEvent) :
    (events.foldl (ffmpeg timeoutMs).judge (.stopped .timeout)).result =
      (events.findSome? endOf).map fun _ => .error .timeout := by
  induction events with
  | nil => rfl
  | cons event rest ih =>
      cases event with
      | data | overdue | escalate => exact ih
      | error | close =>
          rw [List.foldl_cons, Run.judge, foldl_ended]
          rfl

/-- A child that is read ends with what was kept and what is still to come. -/
theorem foldl_reading (events : List RunEvent) (stderr : Text) :
    (events.foldl (ffmpeg timeoutMs).judge (.reading (lastUnits stderr))).result =
      (events.findSome? endOf).map fun conclude =>
        let before := events.takeWhile fun event => (endOf event).isNone
        if before.any isOverdue then .error .timeout else conclude (stderr ++ stderrOf before) := by
  induction events generalizing stderr with
  | nil => rfl
  | cons event rest ih =>
      cases event with
      | data pipe chunk =>
          cases pipe with
          | stdout => exact ih stderr
          | stderr =>
              have kept := ih (stderr ++ units (decode chunk))
              rw [← lastUnits_append] at kept
              simp only [List.append_assoc] at kept
              rw [List.foldl_cons]
              exact kept
      | overdue =>
          simp only [List.foldl_cons, Run.judge, Verdict.stop]
          rw [show (ffmpeg timeoutMs).overdue = .timeout from rfl, foldl_stopped]
          simp [List.findSome?_cons, endOf, isOverdue]
      | escalate => exact ih stderr
      | error | close =>
          rw [List.foldl_cons, Run.judge, foldl_ended]
          simp only [endOf, List.findSome?_cons, Option.map_some, List.takeWhile_cons,
            Option.isNone_some, List.any_nil, Bool.false_eq_true, if_false, stderrOf,
            List.append_nil]
          rfl

end Outcome

/-- What holds of every run of the encoder. -/
structure RunLaw (timeoutMs : Option ℕ) (begun : Time) (events : List (Time × RunEvent))
    (child : Child Text RunError Unit) : Prop where
  outcome : child.settled = runOutcome (events.map (·.2))
  signals : child.signals = [] ∨ ∃ t, begun + timerDelay (timeoutMs.getD 600000) ≤ t ∧
    (child.signals = [(.term, t)] ∨
      ∃ k, t + 5000 ≤ k ∧ child.signals = [(.term, t), (.kill, k)])
  reported : child.signals ≠ [] → ∀ result, child.settled = some result →
    result = .error .timeout
  tracked : child.tracked = child.settled.isNone
  cleared : child.settled.isSome = true → child.timer = none ∧ child.escalation = none
  final : ∀ more later, (ffmpeg timeoutMs).play child more = some later →
    child.settled.isSome = true → later.settled = child.settled ∧ later.signals = child.signals

/-- The encoder never makes the run stop. -/
theorem ffmpeg_lossless (timeoutMs : Option ℕ) : (ffmpeg timeoutMs).Lossless := by
  intro output pipe chunk
  cases pipe <;> exact ⟨_, rfl⟩

/-- Whatever the child and the timers do, a run settles as its first end tells, times out before it
sends a signal, and leaves nothing behind. -/
theorem ffmpeg_runLaw (timeoutMs : Option ℕ) (begun : Time) (events : List (Time × RunEvent))
    (child : Child Text RunError Unit)
    (played : (ffmpeg timeoutMs).play (.start (ffmpeg timeoutMs) begun) events = some child) :
    RunLaw timeoutMs begun events child := by
  have fresh := sound_start (ffmpeg timeoutMs) begun
  have lossless := ffmpeg_lossless timeoutMs
  obtain ⟨sound, verdict⟩ := sound_play fresh played
  have unforced := unforced_play lossless fresh (unforced_start (ffmpeg timeoutMs) begun) played
  exact
    { outcome := by
        rw [← result_verdict, verdict]
        have read := @foldl_reading timeoutMs (events.map (·.2)) []
        simp only [List.nil_append] at read
        exact read
      signals := by
        cases stopped : child.termination with
        | none => exact .inl (sound.calm stopped).1
        | some reason =>
            obtain ⟨t, ⟨only, _⟩ | ⟨k, later, both, _⟩⟩ := sound.stopped (by simp [stopped])
            · exact .inr ⟨t, unforced.late t (by simp [only]), .inl only⟩
            · exact .inr ⟨t, unforced.late t (by simp [both]), .inr ⟨k, later, both⟩⟩
      reported := fun sent result settled => by
        cases stopped : child.termination with
        | none => exact absurd (sound.calm stopped).1 sent
        | some reason =>
            rw [unforced.reported reason result stopped settled, unforced.reason reason stopped]
            rfl
      tracked := by rw [sound.tracked, ← sound.settled, Option.not_isSome]
      cleared := fun settled => by
        refine ⟨?_, unforced.quiet settled⟩
        by_contra armed
        have unsettled := (sound.timer (Option.isSome_iff_ne_none.mpr armed)).2
        simp [unsettled] at settled
      final := fun more later continued settled =>
        ⟨settled_play sound settled continued,
          unforced.final lossless sound settled continued⟩ }

/-- A child that ignores the first signal is killed, and its exit code no longer counts. -/
def stubborn : List (Time × RunEvent) :=
  [(5, .data .stderr [0x68, 0x69]), (1000, .overdue), (6000, .escalate), (6010, .close (some 0))]

theorem ffmpeg_runLaw_stubborn : ∃ child,
    (ffmpeg (some 1000)).play (.start (ffmpeg (some 1000)) 0) stubborn = some child ∧
      RunLaw (some 1000) 0 stubborn child ∧
      child.signals = [(.term, 1000), (.kill, 6000)] := by
  refine ⟨_, rfl, ffmpeg_runLaw (some 1000) 0 stubborn _ rfl, rfl⟩

end PostsMedia.Tools
