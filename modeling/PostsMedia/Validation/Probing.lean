import PostsMedia.Tools.Probing
import PostsMedia.Validation.Inspection

namespace PostsMedia.Validation

open Utf8

open Supervision (Pipe)

def maxProbeOutputBytes : ℕ := 1024 * 1024

/-- What the child process and the timer tell `AvInspectorService.probe`. -/
inductive InspectorEvent
  | data (pipe : Pipe) (chunk : Bytes)
  | timeout
  | error
  | close (code : Option Int)

structure InspectorState where
  stdout : Bytes := []
  capturedBytes : ℕ := 0
  settled : Option ProbeResult := none
  kills : ℕ := 0

def InspectorState.settle (state : InspectorState) (result : ProbeResult) : InspectorState :=
  if state.settled.isSome then state else { state with settled := some result }

/-- The document on the whole standard output. -/
def parseOutput (stdout : Bytes) : ProbeResult :=
  match JSON.parse (Tools.units (decode stdout)) with
  | some document => .document document
  | none => .corrupted

/-- Both outputs count, and one of them is kept. The timer is cleared when the promise settles. -/
def inspectorStep (state : InspectorState) : InspectorEvent → InspectorState
  | .data pipe chunk =>
      let state := { state with capturedBytes := state.capturedBytes + chunk.length }
      if state.capturedBytes > maxProbeOutputBytes then
        { state with kills := state.kills + 1 }.settle .corrupted
      else if pipe = .stdout then { state with stdout := state.stdout ++ chunk }
      else state
  | .timeout =>
      if state.settled.isSome then state
      else { state with kills := state.kills + 1 }.settle .timeout
  | .error => state.settle .corrupted
  | .close code => state.settle (if code = some 0 then parseOutput state.stdout else .corrupted)

/-- The promise of `probe` after the events of its child. A child that cannot be spawned has no
events. -/
def inspectorProbe (spawned : Bool) (events : List InspectorEvent) : Option ProbeResult :=
  if spawned then (events.foldl inspectorStep {}).settled else some .corrupted

/-- What the child wrote to its standard output. -/
def stdoutBytes : List (Pipe × Bytes) → Bytes
  | [] => []
  | (.stdout, chunk) :: rest => chunk ++ stdoutBytes rest
  | (.stderr, _) :: rest => stdoutBytes rest

def writtenBytes (chunks : List (Pipe × Bytes)) : ℕ := (chunks.map fun chunk => chunk.2.length).sum

/-- How a run ends that stays within the limit. -/
inductive InspectorEnd
  | timeout
  | error
  | close (code : Option Int)

def InspectorEnd.event : InspectorEnd → InspectorEvent
  | .timeout => .timeout
  | .error => .error
  | .close code => .close code

def InspectorEnd.result (stdout : Bytes) : InspectorEnd → ProbeResult
  | .timeout => .timeout
  | .error => .corrupted
  | .close code => if code = some 0 then parseOutput stdout else .corrupted

/-- A run in which the child writes these chunks. -/
def inspectorRun (chunks : List (Pipe × Bytes)) (last : InspectorEnd) : List InspectorEvent :=
  chunks.map (fun chunk => .data chunk.1 chunk.2) ++ [last.event]

section Chunks

variable {state : InspectorState} {chunks : List (Pipe × Bytes)}

theorem settled_settle (result : ProbeResult) :
    (state.settle result).settled = some (state.settled.getD result) := by
  cases settled : state.settled <;> simp [InspectorState.settle, settled]

/-- A settled promise stays as it is. -/
theorem settled_inspectorStep {result : ProbeResult} (settled : state.settled = some result)
    (event : InspectorEvent) : (inspectorStep state event).settled = some result := by
  cases event with
  | data pipe chunk =>
      unfold inspectorStep
      dsimp only
      split_ifs
      · rw [settled_settle]
        exact congrArg (fun settled => some (settled.getD .corrupted)) settled
      all_goals exact settled
  | timeout => simp [inspectorStep, settled]
  | error | close => rw [inspectorStep, settled_settle, settled, Option.getD_some]

theorem settled_foldl {result : ProbeResult} (settled : state.settled = some result)
    (events : List InspectorEvent) : (events.foldl inspectorStep state).settled = some result := by
  induction events generalizing state with
  | nil => exact settled
  | cons event rest ih => exact ih (settled_inspectorStep settled event)

/-- A run within the limit ends with the whole output, and a run past it is corrupted. -/
theorem foldl_inspectorRun (fresh : state.settled = none) (last : InspectorEnd)
    (within : state.capturedBytes ≤ maxProbeOutputBytes) :
    ((inspectorRun chunks last).foldl inspectorStep state).settled =
      some (if maxProbeOutputBytes < state.capturedBytes + writtenBytes chunks then .corrupted
        else last.result (state.stdout ++ stdoutBytes chunks)) := by
  induction chunks generalizing state with
  | nil =>
      have short : ¬ maxProbeOutputBytes < state.capturedBytes := by omega
      cases last <;>
        simp [inspectorRun, writtenBytes, stdoutBytes, InspectorEnd.event, InspectorEnd.result,
          inspectorStep, InspectorState.settle, fresh, short]
  | cons chunk rest ih =>
      obtain ⟨pipe, chunk⟩ := chunk
      have total : writtenBytes ((pipe, chunk) :: rest) = chunk.length + writtenBytes rest := by
        simp [writtenBytes]
      rw [inspectorRun, List.map_cons, List.cons_append, List.foldl_cons, total]
      by_cases long : maxProbeOutputBytes < state.capturedBytes + chunk.length
      · rw [if_pos (by omega)]
        apply settled_foldl
        simp [inspectorStep, long, settled_settle, fresh]
      · have next (stdout : Bytes) := @ih { state with
          capturedBytes := state.capturedBytes + chunk.length, stdout } fresh (by simpa using long)
        cases pipe with
        | stdout =>
            have continued := next (state.stdout ++ chunk)
            rw [List.append_assoc] at continued
            simpa [inspectorStep, long, inspectorRun, stdoutBytes, Nat.add_assoc] using continued
        | stderr =>
            simpa [inspectorStep, long, inspectorRun, stdoutBytes, Nat.add_assoc] using
              next state.stdout

end Chunks

section Sibling

/-- The fields of a document that the worker's prober returns. -/
def probedFields (document : Value) : Option Tools.ProbeResult :=
  (document.get "format").bind fun format => (document.get "streams").bind fun streams =>
    (document.get "tags").map fun tags => { format, streams := streams.orElse (.arr []), tags }

/-- What the worker's prober tells of the same output. -/
def ProbeResult.reported : ProbeResult → Except Tools.ProbeError Tools.ProbeResult
  | .document read =>
      match probedFields read with
      | some fields => .ok fields
      | none => .error .invalidOutput
  | _ => .error .invalidOutput

theorem parsed_eq (text : List Char) :
    Tools.parsed text = (parseOutput (encode text)).reported := by
  rw [parseOutput, decode_encode, Tools.parsed]
  cases JSON.parse (Tools.units text) with
  | none => rfl
  | some document => rfl

theorem stdoutBytes_map (chunks : List Bytes) :
    stdoutBytes (chunks.map fun chunk => (.stdout, chunk)) = chunks.flatten := by
  induction chunks with
  | nil => rfl
  | cons chunk rest ih => rw [List.map_cons, stdoutBytes, ih, List.flatten_cons]

theorem writtenBytes_map (chunks : List Bytes) :
    writtenBytes (chunks.map fun chunk => (.stdout, chunk)) = chunks.flatten.length := by
  rw [writtenBytes, List.map_map, List.length_flatten]
  rfl

end Sibling

/-- What holds of every run of the upload's prober. -/
structure InspectorLaw : Prop where
  whole : ∀ chunks last, inspectorProbe true (inspectorRun chunks last) =
    some (if maxProbeOutputBytes < writtenBytes chunks then .corrupted
      else last.result (stdoutBytes chunks))
  final : ∀ events more result, inspectorProbe true events = some result →
    inspectorProbe true (events ++ more) = some result
  sibling : ∀ (limit : ℕ) (text : List Char) (chunks : List Bytes),
    chunks.flatten = encode text → Uncut chunks → byteLength text ≤ limit →
      byteLength text ≤ maxProbeOutputBytes →
        PostsMedia.Tools.probe limit (Tools.dataRun chunks) =
          (inspectorProbe true (inspectorRun (chunks.map fun chunk => (.stdout, chunk))
            (.close (some 0)))).map ProbeResult.reported

/-- The prober of the uploads reads its outputs whole, and the worker's prober agrees with it on
every output that both take and that no chunk cuts inside a character. -/
theorem inspector_law : InspectorLaw where
  whole chunks last := by
    have run := @foldl_inspectorRun {} chunks rfl last (Nat.zero_le _)
    simpa [inspectorProbe] using run
  final events more result settled := by
    simp only [inspectorProbe, if_true, List.foldl_append] at settled ⊢
    exact settled_foldl settled more
  sibling limit text chunks split uncut fits fits' := by
    have received := (@Tools.received_iff limit chunks text split).mpr (.inr uncut)
    have run := @foldl_inspectorRun {} (chunks.map fun chunk => (.stdout, chunk)) rfl
      (.close (some 0)) (Nat.zero_le _)
    rw [writtenBytes_map, stdoutBytes_map, split] at run
    have short : ¬ maxProbeOutputBytes < 0 + (encode text).length := by
      rw [show (encode text).length = byteLength text from rfl]
      omega
    rw [Tools.probe_dataRun, received, if_neg (by omega), inspectorProbe, if_pos rfl, run,
      if_neg short]
    exact congrArg some (parsed_eq text)

end PostsMedia.Validation
