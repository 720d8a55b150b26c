import PostsMedia.Domain.Json
import PostsMedia.Library.Utf8
import PostsMedia.Storage.ObjectKey

namespace PostsMedia.Tools

open Utf8

/-- The fields of a probed document that the service returns. -/
structure ProbeResult where
  format : Value
  streams : Value
  tags : Value

inductive ProbeError
  | outputLimit
  | timeout
  | spawn (message : String)
  | failed (code : Option Int) (stderr : Text)
  | invalidOutput

def ProbeError.message : ProbeError → Text
  | .outputLimit => Text.ofString "FFPROBE_OUTPUT_LIMIT"
  | .timeout => Text.ofString "MEDIA_VALIDATION_TIMEOUT"
  | .spawn message => Text.ofString message
  | .failed code stderr =>
      let status := (code.map toString).getD "UNKNOWN"
      Text.ofString s!"FFPROBE_FAILED_{status}: " ++ stderr
  | .invalidOutput => Text.ofString "FFPROBE_INVALID_OUTPUT"

/-- The units of decoded characters. -/
def units (text : List Char) : Text := text.flatMap Text.ofChar

/-- What the child process and the timer tell. -/
inductive ProbeEvent
  | stdout (chunk : Bytes)
  | stderr (chunk : Bytes)
  | timeout
  | error (message : String)
  | close (code : Option Int)

structure ProbeState where
  stdout : List Char := []
  stderr : List Char := []
  terminationError : Option ProbeError := none
  settled : Option (Except ProbeError ProbeResult) := none

/-- Every chunk is decoded on its own, and the text so far is measured in bytes again. -/
def append (maxOutputBytes : ℕ) (current : List Char) (chunk : Bytes) : Option (List Char) :=
  if byteLength current + chunk.length > maxOutputBytes then none
  else some (current ++ decode chunk)

/-- The first error decides. The child gets its signal. -/
def terminate (error : ProbeError) (state : ProbeState) : ProbeState :=
  if state.terminationError.isSome then state else { state with terminationError := some error }

/-- The document that the text on `stdout` denotes. A document without properties is invalid. -/
def parsed (stdout : List Char) : Except ProbeError ProbeResult :=
  match (JSON.parse (units stdout)).bind fun parsed =>
    (parsed.get "format").bind fun format => (parsed.get "streams").bind fun streams =>
      (parsed.get "tags").map fun tags =>
        { format, streams := streams.orElse (.arr []), tags : ProbeResult } with
  | some result => .ok result
  | none => .error .invalidOutput

def closed (state : ProbeState) (code : Option Int) : Except ProbeError ProbeResult :=
  match state.terminationError with
  | some error => .error error
  | none =>
      if code ≠ some 0 then .error (.failed code ((units state.stderr).take 500))
      else parsed state.stdout

def step (maxOutputBytes : ℕ) (state : ProbeState) : ProbeEvent → ProbeState
  | .stdout chunk =>
      if state.terminationError.isSome then state
      else match append maxOutputBytes state.stdout chunk with
        | some stdout => { state with stdout }
        | none => terminate .outputLimit state
  | .stderr chunk =>
      if state.terminationError.isSome then state
      else match append maxOutputBytes state.stderr chunk with
        | some stderr => { state with stderr }
        | none => terminate .outputLimit state
  | .timeout => if state.settled.isSome then state else terminate .timeout state
  | .error message =>
      if state.settled.isSome then state
      else { state with settled := some (.error (state.terminationError.getD (.spawn message))) }
  | .close code =>
      if state.settled.isSome then state
      else { state with settled := some (closed state code) }

/-- The outcome of a probe after its events. -/
def probe (maxOutputBytes : ℕ) (events : List ProbeEvent) :
    Option (Except ProbeError ProbeResult) :=
  (events.foldl (step maxOutputBytes) {}).settled

/-- A run in which the child writes its output in these chunks and succeeds. -/
def dataRun (chunks : List Bytes) : List ProbeEvent :=
  chunks.map .stdout ++ [.close (some 0)]

/-- The decision on a stream that is decoded at once. -/
def whole (maxOutputBytes : ℕ) (stream : Bytes) : Except ProbeError ProbeResult :=
  if maxOutputBytes < stream.length then .error .outputLimit else parsed (decode stream)

/-- The text that the chunks leave for the parser, unless they go past the limit. -/
def received (maxOutputBytes : ℕ) (chunks : List Bytes) : Option (List Char) :=
  chunks.foldlM (append maxOutputBytes) []

section Chunks

variable {maxOutputBytes : ℕ} {chunks : List Bytes} {current text : List Char}
  {state : ProbeState}

theorem append_eq_some {chunk : Bytes}
    (appended : append maxOutputBytes current chunk = some text) :
    text = current ++ decode chunk ∧ byteLength current + chunk.length ≤ maxOutputBytes := by
  unfold append at appended
  split_ifs at appended with long
  exact ⟨(Option.some.inj appended).symm, not_lt.mp long⟩

/-- What is received is what the chunks decode to. -/
theorem eq_of_received (got : chunks.foldlM (append maxOutputBytes) current = some text) :
    text = current ++ chunks.flatMap decode := by
  induction chunks generalizing current with
  | nil =>
      rw [List.foldlM_nil] at got
      rw [List.flatMap_nil, List.append_nil]
      exact (Option.some.inj got).symm
  | cons chunk chunks ih =>
      rw [List.foldlM_cons] at got
      obtain ⟨next, appended, later⟩ := Option.bind_eq_some_iff.mp got
      rw [ih later, (append_eq_some appended).1, List.flatMap_cons, List.append_assoc]

/-- The measure never falls behind the bytes, so a stream past the limit is refused. -/
theorem received_of_long (some : chunks ≠ [])
    (long : maxOutputBytes < byteLength current + chunks.flatten.length) :
    chunks.foldlM (append maxOutputBytes) current = none := by
  induction chunks generalizing current with
  | nil => exact absurd rfl some
  | cons chunk chunks ih =>
      rw [List.foldlM_cons]
      cases appended : append maxOutputBytes current chunk with
      | none => rfl
      | some next =>
          obtain ⟨rfl, fits⟩ := append_eq_some appended
          have bound := length_le_byteLength_decode chunk
          rw [List.flatten_cons, List.length_append] at long
          cases chunks with
          | nil =>
              rw [List.flatten_nil, List.length_nil] at long
              omega
          | cons other chunks =>
              apply ih (by simp)
              rw [byteLength_append]
              omega

/-- Chunks of whole characters are received up to the limit. -/
theorem received_of_exact (exact : ∀ chunk ∈ chunks, byteLength (decode chunk) = chunk.length)
    (fits : byteLength current + chunks.flatten.length ≤ maxOutputBytes) :
    chunks.foldlM (append maxOutputBytes) current = some (current ++ chunks.flatMap decode) := by
  induction chunks generalizing current with
  | nil => simp
  | cons chunk chunks ih =>
      have here := exact chunk List.mem_cons_self
      rw [List.flatten_cons, List.length_append] at fits
      have appended : append maxOutputBytes current chunk = some (current ++ decode chunk) :=
        if_neg (by omega)
      have later := @ih (current ++ decode chunk)
        (fun other member => exact other (List.mem_cons_of_mem _ member))
        (by rw [byteLength_append]; omega)
      rw [List.foldlM_cons, appended, List.flatMap_cons, ← List.append_assoc]
      exact later

/-- The stream's text is received whole exactly when the stream goes past the limit, and is refused,
or no chunk starts inside a character. -/
theorem received_iff (split : chunks.flatten = encode text) :
    received maxOutputBytes chunks =
      (if maxOutputBytes < byteLength text then none else some text) ↔
      maxOutputBytes < byteLength text ∨ Uncut chunks := by
  have length : chunks.flatten.length = byteLength text := by rw [split, byteLength]
  by_cases long : maxOutputBytes < byteLength text
  · have nonempty : chunks ≠ [] := by
      rintro rfl
      rw [← length] at long
      cases long
    have refused : received maxOutputBytes chunks = none := by
      apply received_of_long nonempty
      rw [length]
      omega
    simp [long, refused]
  · simp only [long, if_false, false_or]
    constructor
    · intro got
      by_contra cut
      have more := length_lt_byteLength_chunks cut
      rw [← List.nil_append (chunks.flatMap decode), ← eq_of_received got] at more
      omega
    · intro uncut
      obtain ⟨decoded, exact⟩ := decode_uncut split uncut
      have got : received maxOutputBytes chunks = some ([] ++ chunks.flatMap decode) := by
        apply received_of_exact exact
        rw [length, show byteLength [] = 0 from rfl]
        omega
      rwa [List.nil_append, decoded] at got

/-- After an error the output is not read. -/
theorem foldl_terminated (terminated : state.terminationError.isSome) (chunks : List Bytes) :
    (chunks.map .stdout).foldl (step maxOutputBytes) state = state := by
  induction chunks with
  | nil => rfl
  | cons chunk chunks ih =>
      rw [List.map_cons, List.foldl_cons, step, if_pos terminated]
      exact ih

/-- The output of the child is received chunk by chunk. -/
theorem closed_foldl_data (fresh : state.terminationError = none) (chunks : List Bytes) :
    ((chunks.map .stdout).foldl (step maxOutputBytes) state).settled = state.settled ∧
    closed ((chunks.map .stdout).foldl (step maxOutputBytes) state) (some 0) =
      match chunks.foldlM (append maxOutputBytes) state.stdout with
      | some text => parsed text
      | none => .error .outputLimit := by
  induction chunks generalizing state with
  | nil => simp [closed, fresh]
  | cons chunk chunks ih =>
      have running : ¬ state.terminationError.isSome := by simp [fresh]
      rw [List.map_cons, List.foldl_cons, List.foldlM_cons, step, if_neg running]
      cases appended : append maxOutputBytes state.stdout chunk with
      | some text => exact ih fresh
      | none =>
          dsimp only [Option.bind_eq_bind, Option.bind_none]
          rw [terminate, if_neg running, foldl_terminated rfl]
          exact ⟨rfl, rfl⟩

theorem probe_dataRun (chunks : List Bytes) :
    probe maxOutputBytes (dataRun chunks) =
      some (match received maxOutputBytes chunks with
        | some text => parsed text
        | none => .error .outputLimit) := by
  obtain ⟨unsettled, outcome⟩ := @closed_foldl_data maxOutputBytes {} rfl chunks
  rw [probe, dataRun, List.foldl_append, List.foldl_cons, List.foldl_nil, step, unsettled]
  exact congrArg some outcome

end Chunks

/-- The document that a stream denotes does not depend on its chunks when none starts inside a
character; otherwise another text is parsed or the limit strikes early. -/
theorem probe_chunks (maxOutputBytes : ℕ) {text : List Char} {chunks : List Bytes}
    (split : chunks.flatten = encode text) :
    (received maxOutputBytes chunks =
      (if maxOutputBytes < byteLength text then none else some text) ↔
      maxOutputBytes < byteLength text ∨ Uncut chunks) ∧
    (maxOutputBytes < byteLength text ∨ Uncut chunks →
      probe maxOutputBytes (dataRun chunks) = some (whole maxOutputBytes (encode text))) := by
  refine ⟨received_iff split, ?_⟩
  intro condition
  rw [probe_dataRun, (received_iff split).mpr condition, whole, decode_encode,
    show (encode text).length = byteLength text from rfl]
  by_cases long : maxOutputBytes < byteLength text
  · rw [if_pos long, if_pos long]
  · rw [if_neg long, if_neg long]

/-- A title in two chunks of whole characters. -/
theorem whole_title : probe 1000000 (dataRun [encode "\x7b\"tags\":".toList,
      encode "\x7b\"title\":\"é\"\x7d\x7d".toList]) =
    some (whole 1000000
      (encode ("\x7b\"tags\":".toList ++ "\x7b\"title\":\"é\"\x7d\x7d".toList))) :=
  (probe_chunks 1000000 (by simp)).2 (.inr (by decide +kernel))

/-- The title that a probe tells. -/
def titleOf : Option (Except ProbeError ProbeResult) → Text
  | some (.ok result) =>
      match result.tags.chain "title" with
      | .str title => title
      | _ => []
  | _ => []

/-- A document with one letter of two bytes. -/
def titled : List Char := "\x7b\"tags\":\x7b\"title\":\"é\"\x7d\x7d".toList

theorem cut_title : ¬ ∀ (maxOutputBytes : ℕ) (text : List Char) (chunks : List Bytes),
    chunks.flatten = encode text →
      probe maxOutputBytes (dataRun chunks) = some (whole maxOutputBytes (encode text)) := by
  intro same
  have both := congrArg titleOf (same 1000000 titled
    [(encode titled).take 19, (encode titled).drop 19] (by simp))
  revert both
  decide +kernel

end PostsMedia.Tools
