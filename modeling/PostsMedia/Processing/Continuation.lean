import PostsMedia.Processing.Completion

namespace PostsMedia.Processing

/-- The handler of an execution and the files that it leaves. -/
structure Produce where
  result : HandlerResult
  files : String → Option Bytes
  usable : ∀ workspace, ∀ artifact ∈ result.artifacts workspace, ∃ content,
    files artifact.path = some content ∧ content ≠ []

/-- The statement does what it was asked for. -/
def Action.Succeeds (produce : Produce) : Action → Prop
  | .claim fate | .createAttempt fate | .put fate _ | .copy fate _ | .publish fate _
  | .complete fate _ => fate = .ok
  | .read found => found = true
  | .createWorkspace created => created = true
  | .downloadAndVerify failure | .check failure | .verify failure => failure = none
  | .handle outcome => outcome = .ok (produce.result, produce.files)
  | .remove removed => removed = true
  | .fail _ => False

/-- Time passes, and workers do their statements or were lost before. -/
def Undisturbed (produce : Produce) (_ : State) : Event → Prop
  | .tick _ | .crash _ => True
  | .run _ action => action.Succeeds produce
  | _ => False

section Execution

variable {deployment : Deployment} {produce : Produce} {s : State} {x : ExecutionId}
  {payload : MediaJobPayloadV1} {attemptsMade : Nat} {run : Run}

/-- A statement that succeeds leads on. -/
theorem advance (produce : Produce) (action : Action) {outcome : Outcome}
    (succeeds : action.Succeeds produce)
    (taken : act deployment s x action (s.executions x) = some outcome) :
    ∃ t, (machine deployment).Path (Undisturbed produce) s t ∧ t.executions x = outcome.phase ∧
      t.rows = outcome.rows ∧ t.objects = outcome.objects ∧ t.now = s.now := by
  have path : (machine deployment).Path (Undisturbed produce) s (s.commit x outcome) := by
    refine .single (.run x action) succeeds ?_
    simp [machine, step, taken]
  exact ⟨s.commit x outcome, path, by simp [State.commit], rfl, rfl, rfl⟩

end Execution

end PostsMedia.Processing
