import Mathlib.Data.List.Nodup
import PostsMedia.Processing.Completion
import PostsMedia.Processing.Keys

namespace PostsMedia.Processing

variable {deployment : Deployment} {s t : State} {x y : ExecutionId}

/-- The run of an execution that may still write or remove objects. -/
def Phase.storing : Phase → Option Run
  | .preparing run | .downloading run | .handling run | .uploading run _ _ | .committing run _
  | .removing run _ _ => some run
  | _ => none

theorem Phase.run_of_storing {phase : Phase} {run : Run} (holds : phase.storing = some run) :
    phase.run = some run := by
  cases phase <;> first | exact holds | cases holds

/-- The fate of a database statement. -/
def Action.fate : Action → Option Fate
  | .claim fate | .createAttempt fate | .publish fate _ | .complete fate _ | .fail fate => some fate
  | _ => none

/-- Every database statement learns its own outcome. -/
def Truthful (_ : State) : Event → Prop
  | .run _ action => action.fate ≠ some .unacknowledged
  | _ => True

instance (s : State) (event : Event) : Decidable (Truthful s event) := by
  rcases event <;> unfold Truthful <;> infer_instance

/-- The attempt row of a delivery is new, or it is neither completed nor held by an execution that
may still write or remove objects. -/
def Unshared (s : State) (payload : MediaJobPayloadV1) (attemptsMade : Nat) : Prop :=
  ∀ attempt ∈ s.rows.attempts, attempt.generation = payload.generation →
    attempt.bullAttemptNumber = attemptsMade + 1 →
    attempt.status ≠ .completed ∧
      ∀ y run, (s.executions y).storing = some run → run.attemptId ≠ attempt.id

/-- The runs in which no two executions store objects under one attempt. -/
def ExclusiveAttempts (s : State) (event : Event) : Prop :=
  Truthful s event ∧
    match event with
    | .run x (.createAttempt .ok) => ∀ payload attemptsMade media,
        s.executions x = .starting payload attemptsMade media → Unshared s payload attemptsMade
    | _ => True

/-- The final object of an artifact has the bytes of its file. -/
def Held (deployment : Deployment) (objects : ObjectRef → Option Bytes) (run : Run)
    (upload : Upload) (artifact : ProcessedArtifact) : Prop :=
  ∃ content, upload.files artifact.path = some content ∧
    objects (finalRef deployment run artifact) = some content

/-- How far the current artifact has come. -/
def Placed (deployment : Deployment) (objects : ObjectRef → Option Bytes) (run : Run)
    (upload : Upload) (artifact : ProcessedArtifact) : UploadStage → Prop
  | .put => True
  | .check | .copy => ∃ content, upload.files artifact.path = some content ∧
      objects (tempRef deployment run artifact) = some content
  | .verify => Held deployment objects run upload artifact

/-- The objects of an execution agree with its program point. -/
def Stored (deployment : Deployment) (objects : ObjectRef → Option Bytes) : Phase → Prop
  | .uploading run upload stage => ∃ count,
      Tracked deployment run upload count stage.puts stage.copies ∧
      (∀ artifact ∈ upload.artifacts.take count, Held deployment objects run upload artifact) ∧
      ∀ artifact rest, upload.pending = artifact :: rest →
        Placed deployment objects run upload artifact stage
  | .committing run upload => upload.pending = [] ∧ ∃ count,
      Tracked deployment run upload count 0 0 ∧
      ∀ artifact ∈ upload.artifacts.take count, Held deployment objects run upload artifact
  | .removing run refs failure => ∀ ref ∈ refs,
      (∃ artifact, ref = tempRef deployment run artifact) ∨
        failure ≠ none ∧ ∃ artifact, ref = finalRef deployment run artifact
  | _ => True

/-- What one execution does to the objects, the publications and its program point. -/
inductive Touch (deployment : Deployment) (s : State) (x : ExecutionId) :
    Phase → (ObjectRef → Option Bytes) → List Publication → Phase → Prop
  | settle (phase next : Phase) (ended : next.storing = none) :
      Touch deployment s x phase s.objects s.publications next
  | begin (payload : MediaJobPayloadV1) (attemptsMade : Nat) (media : Media)
      (free : Unshared s payload attemptsMade) :
      Touch deployment s x (.starting payload attemptsMade media) s.objects s.publications
        (.preparing ⟨payload, attemptsMade, media,
          (createAttempt s.rows (newAttempt deployment x payload attemptsMade)).2.id⟩)
  | download (run : Run) :
      Touch deployment s x (.preparing run) s.objects s.publications (.downloading run)
  | handle (run : Run) :
      Touch deployment s x (.downloading run) s.objects s.publications (.handling run)
  | start (run : Run) (result : HandlerResult) (files : String → Option Bytes) :
      Touch deployment s x (.handling run) s.objects s.publications
        (nextUpload run (startUpload deployment run result files))
  | put (run : Run) (upload : Upload) (artifact : ProcessedArtifact) (rest : List ProcessedArtifact)
      (content : Bytes) (current : upload.pending = artifact :: rest)
      (file : upload.files artifact.path = some content) :
      Touch deployment s x (.uploading run upload .put)
        (Function.update s.objects (tempRef deployment run artifact) (some content)) s.publications
        (.uploading run
          { upload with temporary := upload.temporary ++ [tempRef deployment run artifact] } .check)
  | check (run : Run) (upload : Upload) (artifact : ProcessedArtifact)
      (rest : List ProcessedArtifact) (current : upload.pending = artifact :: rest) :
      Touch deployment s x (.uploading run upload .check) s.objects s.publications
        (.uploading run
          { upload with finals := upload.finals ++ [finalRef deployment run artifact] } .copy)
  | copy (run : Run) (upload : Upload) (artifact : ProcessedArtifact)
      (rest : List ProcessedArtifact) (content : Bytes)
      (current : upload.pending = artifact :: rest)
      (source : s.objects (tempRef deployment run artifact) = some content) :
      Touch deployment s x (.uploading run upload .copy)
        (Function.update s.objects (finalRef deployment run artifact) (some content))
        s.publications (.uploading run upload .verify)
  | verify (run : Run) (upload : Upload) (artifact : ProcessedArtifact)
      (rest : List ProcessedArtifact) (current : upload.pending = artifact :: rest) :
      Touch deployment s x (.uploading run upload .verify) s.objects s.publications
        (nextUpload run { upload with pending := rest })
  | abort (run : Run) (upload : Upload) (stage : UploadStage) (error : String) :
      Touch deployment s x (.uploading run upload stage) s.objects s.publications
        (abortUpload run upload error)
  | abortPut (run : Run) (upload : Upload) (artifact : ProcessedArtifact) (content : Bytes)
      (error : String) :
      Touch deployment s x (.uploading run upload .put)
        (Function.update s.objects (tempRef deployment run artifact) (some content)) s.publications
        (abortUpload run upload error)
  | abortCopy (run : Run) (upload : Upload) (artifact : ProcessedArtifact) (content : Bytes)
      (error : String) :
      Touch deployment s x (.uploading run upload .copy)
        (Function.update s.objects (finalRef deployment run artifact) (some content))
        s.publications (abortUpload run upload error)
  | abortPublish (run : Run) (upload : Upload) (error : String) :
      Touch deployment s x (.committing run upload) s.objects s.publications
        (abortUpload run upload error)
  | publish (run : Run) (upload : Upload) :
      Touch deployment s x (.committing run upload) s.objects
        (s.publications ++ [⟨x, run, upload⟩]) (.removing run upload.temporary none)
  | skip (run : Run) (ref : ObjectRef) (rest : List ObjectRef) (failure : Option String) :
      Touch deployment s x (.removing run (ref :: rest) failure) s.objects s.publications
        (.removing run rest failure)
  | remove (run : Run) (ref : ObjectRef) (rest : List ObjectRef) (failure : Option String) :
      Touch deployment s x (.removing run (ref :: rest) failure)
        (Function.update s.objects ref none) s.publications (.removing run rest failure)

/-- Every statement touches the objects in one of these ways. -/
theorem touch_of_act {action : Action} {phase : Phase} {outcome : Outcome}
    (truthful : action.fate ≠ some .unacknowledged)
    (free : action = .createAttempt .ok → ∀ payload attemptsMade media,
      phase = .starting payload attemptsMade media → Unshared s payload attemptsMade)
    (taken : act deployment s x action phase = some outcome) :
    Touch deployment s x phase outcome.objects outcome.publications outcome.phase := by
  cases statement_of_act taken with
  | attempt payload attemptsMade media =>
      exact .begin payload attemptsMade media (free rfl payload attemptsMade media rfl)
  | workspace => exact .download _
  | download => exact .handle _
  | handle => exact .start ..
  | put run upload artifact rest content _ current file =>
      exact .put run upload artifact rest content current file
  | putUnacknowledged => exact .abortPut ..
  | check run upload artifact rest current => exact .check run upload artifact rest current
  | copy run upload artifact rest content _ current source =>
      exact .copy run upload artifact rest content current source
  | copyUnacknowledged => exact .abortCopy ..
  | verify run upload artifact rest current => exact .verify run upload artifact rest current
  | abort => exact .abort ..
  | publish => exact .publish ..
  | publishUnacknowledged => exact absurd rfl truthful
  | publishLost => exact .abortPublish ..
  | skip => exact .skip ..
  | remove => exact .remove ..
  | _ => exact .settle _ _ rfl

/-- The objects of one run are the same in both storages. -/
def Apart (deployment : Deployment) (run : Run) (before after : ObjectRef → Option Bytes) : Prop :=
  ∀ artifact, after (tempRef deployment run artifact) = before (tempRef deployment run artifact) ∧
    after (finalRef deployment run artifact) = before (finalRef deployment run artifact)

section Objects

variable {before after : ObjectRef → Option Bytes} {run run' : Run} {upload : Upload}
variable {artifact artifact' : ProcessedArtifact} {content : Option Bytes}

theorem Held.apart (apart : Apart deployment run before after)
    (held : Held deployment before run upload artifact) :
    Held deployment after run upload artifact := by
  obtain ⟨content, file, stored⟩ := held
  exact ⟨content, file, (apart artifact).2.trans stored⟩

/-- A phase keeps its objects when nobody touches the objects of its run. -/
theorem Stored.apart {phase : Phase} (stored : Stored deployment before phase)
    (apart : ∀ run, phase.storing = some run → Apart deployment run before after) :
    Stored deployment after phase := by
  cases phase with
  | uploading run upload stage =>
      obtain ⟨count, tracked, held, placed⟩ := stored
      have same := apart run rfl
      refine ⟨count, tracked, fun artifact member => (held artifact member).apart same, ?_⟩
      intro artifact rest current
      have here := placed artifact rest current
      cases stage with
      | put => trivial
      | check | copy =>
          obtain ⟨content, file, present⟩ := here
          exact ⟨content, file, (same artifact).1.trans present⟩
      | verify => exact Held.apart same here
  | committing run upload =>
      obtain ⟨done, count, tracked, held⟩ := stored
      exact ⟨done, count, tracked, fun artifact member =>
        (held artifact member).apart (apart run rfl)⟩
  | removing run refs failure => exact stored
  | _ => trivial

/-- A write to one run leaves the objects of a run of another attempt alone. -/
theorem apart_update {ref : ObjectRef} (same : SameMedia run.media run'.media) (plain : run.Plain)
    (plain' : run'.Plain) (different : run.attemptId ≠ run'.attemptId)
    (owned : (∃ artifact, ref = tempRef deployment run artifact) ∨
      ∃ artifact, ref = finalRef deployment run artifact) :
    Apart deployment run' before (Function.update before ref content) := by
  intro artifact
  rcases owned with ⟨own, rfl⟩ | ⟨own, rfl⟩
  · constructor
    · apply Function.update_of_ne
      intro keys
      exact different (tempRef_inj same plain plain' keys.symm).1
    · exact Function.update_of_ne tempRef_ne_finalRef.symm _ _
  · constructor
    · exact Function.update_of_ne tempRef_ne_finalRef _ _
    · apply Function.update_of_ne
      intro keys
      exact different (finalRef_inj same plain plain' keys.symm).1

/-- A write to a temporary object leaves every final object alone. -/
theorem Held.updateTemp (held : Held deployment before run upload artifact) :
    Held deployment (Function.update before (tempRef deployment run' artifact') content) run upload
      artifact := by
  obtain ⟨bytes, file, stored⟩ := held
  exact ⟨bytes, file, (Function.update_of_ne tempRef_ne_finalRef.symm _ _).trans stored⟩

/-- A copy leaves the final objects of the other filenames alone. -/
theorem Held.updateFinal (held : Held deployment before run upload artifact) (plain : run.Plain)
    (different : artifact.filename ≠ artifact'.filename) :
    Held deployment (Function.update before (finalRef deployment run artifact') content) run upload
      artifact := by
  obtain ⟨bytes, file, stored⟩ := held
  refine ⟨bytes, file, ?_⟩
  rw [Function.update_of_ne, stored]
  intro keys
  exact different (finalRef_inj (.refl _) plain plain keys).2

/-- The finished artifacts have other filenames than the current one. -/
theorem Tracked.filename_ne {count puts copies : Nat} {rest : List ProcessedArtifact}
    (tracked : Tracked deployment run upload count puts copies)
    (current : upload.pending = artifact' :: rest)
    (member : artifact ∈ upload.artifacts.take count) : artifact.filename ≠ artifact'.filename := by
  have names := tracked.filenames
  rw [← List.take_append_drop count upload.artifacts, ← tracked.pending, current, List.map_append,
    List.nodup_append] at names
  exact names.2.2 _ (List.mem_map_of_mem member) _ (by simp)

/-- The loop goes on or the transaction starts. -/
theorem stored_next {count : Nat} (tracked : Tracked deployment run upload count 0 0)
    (held : ∀ artifact ∈ upload.artifacts.take count, Held deployment before run upload artifact) :
    Stored deployment before (nextUpload run upload) := by
  unfold nextUpload
  split
  · rename_i done
    exact ⟨done, count, tracked, held⟩
  · exact ⟨count, tracked, held, fun _ _ _ => trivial⟩

/-- The removal after a failed upload concerns only the objects of its run. -/
theorem stored_abort {count puts copies : Nat}
    (tracked : Tracked deployment run upload count puts copies) (error : String) :
    Stored deployment before (abortUpload run upload error) := by
  have temporary : ∀ ref ∈ upload.temporary, ∃ artifact, ref = tempRef deployment run artifact := by
    intro ref member
    rw [tracked.temporary] at member
    obtain ⟨artifact, _, rfl⟩ := List.mem_map.mp member
    exact ⟨artifact, rfl⟩
  intro ref member
  rcases List.mem_append.mp member with first | again
  · rcases List.mem_append.mp first with temp | final
    · exact .inl (temporary ref temp)
    · rw [tracked.finals] at final
      obtain ⟨artifact, _, rfl⟩ := List.mem_map.mp final
      exact .inr ⟨by simp, artifact, rfl⟩
  · exact .inl (temporary ref again)

end Objects

section Touches

variable {phase next : Phase} {objects : ObjectRef → Option Bytes}
variable {publications : List Publication}

/-- An execution keeps its own objects in agreement with its program point. -/
theorem Touch.stored (touch : Touch deployment s x phase objects publications next)
    (stored : Stored deployment s.objects phase)
    (plain : ∀ run, phase.storing = some run → run.Plain) : Stored deployment objects next := by
  cases touch with
  | settle phase next ended => cases next <;> trivial
  | begin | download | handle => trivial
  | start run result files => exact stored_next (tracked_start result files) (by simp)
  | put run upload artifact rest content current file =>
      obtain ⟨count, tracked, held, _⟩ := stored
      refine ⟨count, tracked.put current, fun other member => (held other member).updateTemp, ?_⟩
      intro first others same
      obtain ⟨rfl, _⟩ := List.cons.inj (current.symm.trans same)
      exact ⟨content, file, Function.update_self ..⟩
  | check run upload artifact rest current =>
      obtain ⟨count, tracked, held, placed⟩ := stored
      exact ⟨count, tracked.check current, held, placed⟩
  | copy run upload artifact rest content current source =>
      obtain ⟨count, tracked, held, placed⟩ := stored
      refine ⟨count, tracked, ?_, ?_⟩
      · intro other member
        exact (held other member).updateFinal (plain run rfl) (tracked.filename_ne current member)
      · intro first others same
        obtain ⟨rfl, _⟩ := List.cons.inj (current.symm.trans same)
        obtain ⟨bytes, file, present⟩ := placed artifact rest current
        rw [source] at present
        exact ⟨content, file.trans present.symm, Function.update_self ..⟩
  | verify run upload artifact rest current =>
      obtain ⟨count, tracked, held, placed⟩ := stored
      refine stored_next (tracked.verify current) ?_
      intro other member
      rw [show upload.artifacts.take (count + 1) = upload.artifacts.take count ++ [artifact] from
        (tracked.take_succ current).1] at member
      rcases List.mem_append.mp member with earlier | last
      · exact held other earlier
      · rw [List.mem_singleton.mp last]
        exact placed artifact rest current
  | abort | abortPut | abortCopy =>
      obtain ⟨count, tracked, _⟩ := stored
      exact stored_abort tracked _
  | abortPublish =>
      obtain ⟨_, count, tracked, _⟩ := stored
      exact stored_abort tracked _
  | publish run upload =>
      obtain ⟨_, count, tracked, _⟩ := stored
      intro ref member
      rw [tracked.temporary] at member
      obtain ⟨artifact, _, rfl⟩ := List.mem_map.mp member
      exact .inl ⟨artifact, rfl⟩
  | skip | remove => exact fun other member => stored other (List.mem_cons_of_mem _ member)

/-- An execution writes only objects of its own run, after its publication only temporary ones. -/
theorem Touch.writes (touch : Touch deployment s x phase objects publications next)
    (stored : Stored deployment s.objects phase) :
    objects = s.objects ∨ ∃ run ref content, phase.storing = some run ∧
      objects = Function.update s.objects ref content ∧
      ((∃ artifact, ref = tempRef deployment run artifact) ∨
        (∀ refs, phase ≠ .removing run refs none) ∧
          ∃ artifact, ref = finalRef deployment run artifact) := by
  cases touch with
  | put run upload artifact rest content current file =>
      exact .inr ⟨run, _, _, rfl, rfl, .inl ⟨artifact, rfl⟩⟩
  | abortPut run upload artifact content error =>
      exact .inr ⟨run, _, _, rfl, rfl, .inl ⟨artifact, rfl⟩⟩
  | copy run upload artifact rest content current source =>
      exact .inr ⟨run, _, _, rfl, rfl, .inr ⟨fun _ same => (by cases same), artifact, rfl⟩⟩
  | abortCopy run upload artifact content error =>
      exact .inr ⟨run, _, _, rfl, rfl, .inr ⟨fun _ same => (by cases same), artifact, rfl⟩⟩
  | remove run ref rest failure =>
      refine .inr ⟨run, ref, none, rfl, rfl, ?_⟩
      rcases stored ref List.mem_cons_self with temp | ⟨failed, final⟩
      · exact .inl temp
      · refine .inr ⟨?_, final⟩
        intro refs same
        cases same
        exact failed rfl
  | _ => exact .inl rfl

/-- Only `createAttempt` gives an execution a run. -/
theorem Touch.storing (touch : Touch deployment s x phase objects publications next) {run : Run}
    (holds : next.storing = some run) :
    phase.storing = some run ∨ ∃ payload attemptsMade media,
      phase = .starting payload attemptsMade media ∧ Unshared s payload attemptsMade ∧
        run = ⟨payload, attemptsMade, media,
          (createAttempt s.rows (newAttempt deployment x payload attemptsMade)).2.id⟩ := by
  cases touch with
  | settle phase next ended => simp [ended] at holds
  | begin payload attemptsMade media free =>
      exact .inr ⟨payload, attemptsMade, media, rfl, free, (Option.some.inj holds).symm⟩
  | start | verify =>
      refine .inl ?_
      simp only [nextUpload] at holds
      split at holds <;> exact holds
  | _ => exact .inl holds

/-- An execution that removes its temporary objects after its publication does nothing else. -/
theorem Touch.removing (touch : Touch deployment s x phase objects publications next) {run : Run}
    {refs : List ObjectRef} (started : phase = .removing run refs none)
    (holds : next.storing = some run) : ∃ rest, next = .removing run rest none := by
  cases touch with
  | settle phase next ended => simp [ended] at holds
  | skip | remove =>
      cases started
      exact ⟨_, rfl⟩
  | _ => cases started

/-- Only the transaction of `publish` adds a publication. -/
theorem Touch.publishes (touch : Touch deployment s x phase objects publications next) :
    publications = s.publications ∨ ∃ run upload, phase = .committing run upload ∧
      objects = s.objects ∧ next = .removing run upload.temporary none ∧
      publications = s.publications ++ [⟨x, run, upload⟩] := by
  cases touch with
  | publish run upload => exact .inr ⟨run, upload, rfl, rfl, rfl, rfl⟩
  | _ => exact .inl rfl

end Touches

/-- No two executions store objects under one attempt, and what they have stored stays. -/
structure Kept (deployment : Deployment) (s : State) : Prop where
  unshared : ∀ x y run run', (s.executions x).storing = some run →
    (s.executions y).storing = some run' → run.attemptId = run'.attemptId → x = y
  closed : ∀ publication ∈ s.publications, ∀ x run, (s.executions x).storing = some run →
    run.attemptId = publication.run.attemptId → ∃ refs, s.executions x = .removing run refs none
  stored : ∀ x, Stored deployment s.objects (s.executions x)
  held : ∀ publication ∈ s.publications, ∀ artifact ∈ publication.upload.artifacts,
    Held deployment s.objects publication.run publication.upload artifact

section Kept

variable {run : Run} {publication : Publication}

/-- The attempt names of the rows are segments. -/
theorem Invariant.plain_of_member (invariant : Invariant deployment s) {attempt : ProcessingAttempt}
    (member : attempt ∈ s.rows.attempts) : '/' ∉ attempt.id.toList := by
  obtain ⟨y, named⟩ := invariant.named attempt member
  rw [named]
  exact deployment.attemptName_plain y

theorem Invariant.plain (invariant : Invariant deployment s)
    (holds : (s.executions x).storing = some run) : run.Plain := by
  obtain ⟨attempt, member, id, _⟩ :=
    (invariant.coherent x).attempt run (Phase.run_of_storing holds)
  have plain := invariant.plain_of_member member
  rwa [id] at plain

/-- A publication that took effect belongs to the completed attempt. -/
theorem Invariant.publishedBy (invariant : Invariant deployment s)
    (member : publication ∈ s.publications) : PublishedBy deployment s.rows publication := by
  have done := invariant.settled.completed_of_published (List.ne_nil_of_mem member)
  obtain ⟨single, only, by'⟩ := invariant.settled.published done
  rw [only, List.mem_singleton] at member
  exact member ▸ by'

/-- The completed attempt is the one of the publication. -/
theorem PublishedBy.completed {rows : Rows} (by' : PublishedBy deployment rows publication)
    (distinct : (rows.attempts.map (·.id)).Nodup) {attempt : ProcessingAttempt}
    (member : attempt ∈ rows.attempts) (same : attempt.id = publication.run.attemptId) :
    attempt.status = .completed := by
  obtain ⟨winner, only, id, _⟩ := by'.attempt
  have found : winner ∈ rows.attempts.filter (·.status = .completed) := by simp [only]
  obtain ⟨present, status⟩ := List.mem_filter.mp found
  have one : attempt = winner :=
    List.inj_on_of_nodup_map distinct member present (same.trans id.symm)
  rw [one]
  simpa using status

/-- An attempt that is returned to an unshared delivery is nobody else's. -/
theorem attempt_unshared (invariant : Invariant deployment s) {payload : MediaJobPayloadV1}
    {attemptsMade : Nat} {media : Media}
    (started : s.executions x = .starting payload attemptsMade media)
    (free : Unshared s payload attemptsMade) :
    (∀ y run, (s.executions y).storing = some run → run.attemptId ≠
      (createAttempt s.rows (newAttempt deployment x payload attemptsMade)).2.id) ∧
    ∀ publication ∈ s.publications, publication.run.attemptId ≠
      (createAttempt s.rows (newAttempt deployment x payload attemptsMade)).2.id := by
  have fresh := (invariant.coherent x).unnamed (by rw [started]; rfl)
  unfold createAttempt
  split
  · rename_i present found
    have member := List.mem_of_find?_eq_some found
    have matched := List.find?_some found
    simp only [Bool.and_eq_true, decide_eq_true_eq] at matched
    obtain ⟨running, others⟩ := free present member matched.1 matched.2
    refine ⟨others, fun publication published same => ?_⟩
    exact running ((invariant.publishedBy published).completed invariant.settled.distinct member
      same.symm)
  · constructor
    · intro y run holds same
      obtain ⟨attempt, member, id, _⟩ :=
        (invariant.coherent y).attempt run (Phase.run_of_storing holds)
      exact fresh attempt member (id.trans same)
    · intro publication published same
      obtain ⟨attempt, only, id, _⟩ := (invariant.publishedBy published).attempt
      have found : attempt ∈ s.rows.attempts.filter (·.status = .completed) := by simp [only]
      exact fresh attempt (List.mem_filter.mp found).1 (id.trans same)

/-- A write of one execution leaves the objects of another attempt alone. -/
theorem Touch.apart {objects : ObjectRef → Option Bytes} {publications : List Publication}
    {next : Phase} {run' : Run} (invariant : Invariant deployment s) (kept : Kept deployment s)
    (touch : Touch deployment s x (s.executions x) objects publications next)
    (same : SameMedia run'.media s.rows.media) (plain : run'.Plain)
    (different : ∀ run, (s.executions x).storing = some run → run.attemptId ≠ run'.attemptId) :
    Apart deployment run' s.objects objects := by
  rcases touch.writes (kept.stored x) with unchanged | ⟨run, ref, content, holds, rfl, owned⟩
  · rw [unchanged]
    exact fun _ => ⟨rfl, rfl⟩
  · have mine := (invariant.coherent x).same run (Phase.run_of_storing holds)
    have symmetric : SameMedia run.media run'.media :=
      ⟨mine.id.trans same.id.symm, mine.postId.trans same.postId.symm,
        mine.mediaType.trans same.mediaType.symm, mine.profile.trans same.profile.symm⟩
    exact apart_update symmetric (invariant.plain holds) plain (different run holds)
      (owned.imp_right And.right)

/-- A write of one execution leaves the objects of a publication alone. -/
theorem Touch.held {objects : ObjectRef → Option Bytes} {publications : List Publication}
    {next : Phase} (invariant : Invariant deployment s) (kept : Kept deployment s)
    (touch : Touch deployment s x (s.executions x) objects publications next)
    (published : publication ∈ s.publications) {artifact : ProcessedArtifact}
    (member : artifact ∈ publication.upload.artifacts) :
    Held deployment objects publication.run publication.upload artifact := by
  have held := kept.held publication published artifact member
  have by' := invariant.publishedBy published
  have plain : publication.run.Plain := by
    obtain ⟨attempt, only, id, _⟩ := by'.attempt
    have found : attempt ∈ s.rows.attempts.filter (·.status = .completed) := by simp [only]
    have plain := invariant.plain_of_member (List.mem_filter.mp found).1
    rwa [id] at plain
  by_cases same : ∃ run, (s.executions x).storing = some run ∧
      run.attemptId = publication.run.attemptId
  · -- The execution that published removes only its temporary objects.
    obtain ⟨run, holds, id⟩ := same
    obtain ⟨refs, removing⟩ := kept.closed publication published x run holds id
    rcases touch.writes (kept.stored x) with unchanged | ⟨run', ref, content, holds', rfl, owned⟩
    · rwa [unchanged]
    · rw [removing] at holds'
      obtain rfl := Option.some.inj holds'
      rcases owned with ⟨temp, rfl⟩ | ⟨never, _⟩
      · exact held.updateTemp
      · exact absurd removing (never refs)
  · refine held.apart (touch.apart invariant kept by'.same plain ?_)
    exact fun run holds id => same ⟨run, holds, id⟩

section Moves

variable (invariant : Invariant deployment s) (kept : Kept deployment s)
variable (touch : Touch deployment s x (s.executions x) t.objects t.publications (t.executions x))

include invariant kept touch

/-- The execution that moves shares its attempt with no other one. -/
theorem Kept.single {run run' : Run} (away : y ≠ x)
    (holds : (t.executions x).storing = some run)
    (holds' : (s.executions y).storing = some run') : run.attemptId ≠ run'.attemptId := by
  intro same
  rcases touch.storing holds with before | ⟨payload, attemptsMade, media, started, free, rfl⟩
  · exact away (kept.unshared x y run run' before holds' same).symm
  · exact (attempt_unshared invariant started free).1 y run' holds' same.symm

/-- A publication that took effect before stays closed. -/
theorem Kept.reclosed {run : Run} (member : publication ∈ s.publications)
    (holds : (t.executions x).storing = some run)
    (same : run.attemptId = publication.run.attemptId) :
    ∃ refs, t.executions x = .removing run refs none := by
  rcases touch.storing holds with before | ⟨payload, attemptsMade, media, started, free, rfl⟩
  · obtain ⟨refs, removing⟩ := kept.closed publication member x run before same
    exact touch.removing removing holds
  · exact absurd same.symm ((attempt_unshared invariant started free).2 publication member)

/-- The final objects of every publication are there, also of one that takes effect now. -/
theorem Kept.reheld (published : publication ∈ t.publications) {artifact : ProcessedArtifact}
    (member : artifact ∈ publication.upload.artifacts) :
    Held deployment t.objects publication.run publication.upload artifact := by
  rcases touch.publishes with unchanged | ⟨run', upload, committing, same, _, more⟩
  · exact touch.held invariant kept (unchanged ▸ published) member
  · rw [more] at published
    rcases List.mem_append.mp published with old | new
    · exact touch.held invariant kept old member
    · rw [List.mem_singleton.mp new] at member ⊢
      have stored := kept.stored x
      rw [committing] at stored
      obtain ⟨done, count, tracked, held⟩ := stored
      have all : upload.artifacts.take count = upload.artifacts := by
        have dropped : upload.artifacts.drop count = [] := tracked.pending.symm.trans done
        exact List.take_of_length_le (List.drop_eq_nil_iff.mp dropped)
      rw [same]
      rw [all] at held
      exact held artifact member

end Moves

/-- A touch of one execution keeps the objects. -/
theorem Kept.touch (invariant : Invariant deployment s) (kept : Kept deployment s)
    (others : ∀ y, y ≠ x → t.executions y = s.executions y)
    (touch : Touch deployment s x (s.executions x) t.objects t.publications (t.executions x)) :
    Kept deployment t where
  unshared y z run run' holds holds' same := by
    by_cases first : y = x
    · by_cases second : z = x
      · rw [first, second]
      · rw [first] at holds
        rw [others z second] at holds'
        exact absurd same (kept.single invariant touch second holds holds')
    · by_cases second : z = x
      · rw [others y first] at holds
        rw [second] at holds'
        exact absurd same.symm (kept.single invariant touch first holds' holds)
      · rw [others y first] at holds
        rw [others z second] at holds'
        exact kept.unshared y z run run' holds holds' same
  closed publication published y run holds same := by
    have old (member : publication ∈ s.publications) :
        ∃ refs, t.executions y = .removing run refs none := by
      by_cases mine : y = x
      · subst mine
        exact kept.reclosed invariant touch member holds same
      · rw [others y mine] at holds ⊢
        exact kept.closed publication member y run holds same
    rcases touch.publishes with unchanged | ⟨run', upload, committing, _, removing, more⟩
    · exact old (unchanged ▸ published)
    · rw [more] at published
      rcases List.mem_append.mp published with member | new
      · exact old member
      · rw [List.mem_singleton.mp new] at same
        by_cases mine : y = x
        · subst mine
          rw [removing] at holds ⊢
          obtain rfl := Option.some.inj holds
          exact ⟨_, rfl⟩
        · rw [others y mine] at holds
          have holder : (s.executions x).storing = some run' := by rw [committing]; rfl
          exact absurd (kept.unshared y x run run' holds holder same) mine
  stored y := by
    by_cases mine : y = x
    · subst mine
      exact touch.stored (kept.stored y) fun run holds => invariant.plain holds
    · rw [others y mine]
      refine (kept.stored y).apart fun run holds => touch.apart invariant kept
        ((invariant.coherent y).same run (Phase.run_of_storing holds)) (invariant.plain holds) ?_
      exact fun run' holds' same => mine (kept.unshared x y run' run holds' holds same).symm
  held publication published artifact member :=
    kept.reheld invariant touch published member

end Kept

/-- Every admitted event keeps the objects. -/
theorem kept_step {event : Event} (invariant : Invariant deployment s)
    (admitted : ExclusiveAttempts s event) (taken : step deployment s event = some t)
    (kept : Kept deployment s) : Kept deployment t := by
  have ended (x : ExecutionId) (next : Phase) (settled : next.storing = none) :
      Kept deployment (s.commit x (s.goto next)) := by
    refine kept.touch invariant (fun y away => Function.update_of_ne away _ _) ?_
    simp only [State.commit, State.goto, Function.update_self]
    exact .settle _ _ settled
  cases event with
  | tick duration =>
      cases taken
      exact ⟨kept.unshared, kept.closed, kept.stored, kept.held⟩
  | deliver x payload attemptsMade =>
      simp only [step] at taken
      split at taken
      · split at taken <;> cases taken
        exact ended x _ rfl
      · cases taken
  | run x action =>
      obtain ⟨outcome, acted, rfl⟩ := Option.map_eq_some_iff.mp taken
      obtain ⟨truthful, exclusive⟩ := admitted
      refine kept.touch invariant (fun y away => Function.update_of_ne away _ _) ?_
      simp only [State.commit, Function.update_self]
      refine touch_of_act truthful ?_ acted
      intro creates
      subst creates
      exact exclusive
  | renew x generation asOf =>
      simp only [step] at taken
      split at taken <;> cases taken
      exact ⟨kept.unshared, kept.closed, kept.stored, kept.held⟩
  | crash x =>
      simp only [step] at taken
      split at taken <;> cases taken
      exact ended x _ rfl
  | retry id dispatchId =>
      obtain ⟨rows, _, rfl⟩ := Option.map_eq_some_iff.mp taken
      exact ⟨kept.unshared, kept.closed, kept.stored, kept.held⟩
  | outbox dispatches =>
      cases taken
      exact ⟨kept.unshared, kept.closed, kept.stored, kept.held⟩

/-- The objects are kept in every state of an admitted run. -/
theorem kept_of_reachable (reached : (machine deployment).Reachable ExclusiveAttempts s) :
    Kept deployment s := by
  refine reached.strengthen (Invariant deployment) (fun _ earlier => invariant_of_reachable earlier)
    ?_ fun _ _ _ invariant _ admitted taken kept => kept_step invariant admitted taken kept
  intro s initial
  obtain ⟨_, _, _, idle, publications⟩ := initial
  have nobody (x : ExecutionId) (run : Run) : (s.executions x).storing ≠ some run := by
    rw [idle x]
    exact fun holds => by cases holds
  refine ⟨fun x _ run _ holds => absurd holds (nobody x run), ?_, fun x => ?_, ?_⟩
  · simp [publications]
  · rw [idle x]
    trivial
  · simp [publications]

/-- The rows of a publication record their files. -/
theorem variantRows_mem {run : Run} {files : String → Option Bytes}
    {artifacts : List ProcessedArtifact} {variants : List MediaVariant}
    (built : variantRows deployment run files artifacts
      (artifacts.map (finalRef deployment run)) = some variants) {variant : MediaVariant}
    (member : variant ∈ variants) : ∃ artifact ∈ artifacts, ∃ content,
      files artifact.path = some content ∧
        variant =
          variantRow deployment run artifact (finalRef deployment run artifact) content := by
  induction artifacts generalizing variants with
  | nil =>
      cases built
      cases member
  | cons artifact artifacts ih =>
      simp only [List.map_cons, variantRows, Option.bind_eq_some_iff,
        Option.map_eq_some_iff] at built
      obtain ⟨content, file, rest, others, rfl⟩ := built
      rcases List.mem_cons.mp member with rfl | later
      · exact ⟨artifact, List.mem_cons_self, content, file, rfl⟩
      · obtain ⟨other, present, found⟩ := ih others later
        exact ⟨other, List.mem_cons_of_mem _ present, found⟩

/-- A variant row refers to a stored object with the recorded bytes of an uploaded file. -/
structure Intact (deployment : Deployment) (objects : ObjectRef → Option Bytes) (upload : Upload)
    (artifact : ProcessedArtifact) (variant : MediaVariant) (content : Bytes) : Prop where
  uploaded : upload.files artifact.path = some content
  variantType : variant.variantType = artifact.variantType
  stored : objects ⟨variant.bucket, variant.objectKey⟩ = some content
  size : variant.size = content.length
  checksum : variant.checksumSha256 = deployment.sha256 content

/-- In the admitted runs each variant of a completed media is intact. -/
def ObjectsIntact (deployment : Deployment) (guard : State → Event → Prop) : Prop :=
  ∀ s, (machine deployment).Reachable guard s → s.rows.media.processingStatus = .completed →
    ∀ variant ∈ s.rows.variants, ∃ publication ∈ s.publications,
      ∃ artifact ∈ publication.upload.artifacts, ∃ content,
        Intact deployment s.objects publication.upload artifact variant content

/-- Published objects are never destroyed or overwritten while attempts are not shared. -/
theorem published_objectsIntact (deployment : Deployment) :
    ObjectsIntact deployment ExclusiveAttempts := by
  intro s reached done variant member
  obtain ⟨publication, only, by'⟩ := (invariant_of_reachable reached).settled.published done
  have published : publication ∈ s.publications := by simp [only]
  obtain ⟨artifact, present, content, file, rfl⟩ := variantRows_mem by'.variants member
  obtain ⟨bytes, file', stored⟩ :=
    (kept_of_reachable reached).held publication published artifact present
  rw [file] at file'
  cases file'
  exact ⟨publication, published, artifact, present, content, file, rfl, stored, rfl, rfl⟩

/-- The runs in which the media has no attempt row before the first one. -/
def OneAttempt (s : State) (event : Event) : Prop :=
  Truthful s event ∧
    match event with
    | .run _ (.createAttempt _) => s.rows.attempts.isEmpty = true
    | _ => True

instance (s : State) (event : Event) : Decidable (OneAttempt s event) := by
  unfold OneAttempt
  rcases event
  case run x action => rcases action <;> infer_instance
  all_goals infer_instance

theorem OneAttempt.exclusive (s : State) (event : Event) (one : OneAttempt s event) :
    ExclusiveAttempts s event := by
  refine ⟨one.1, ?_⟩
  split
  · intro payload attemptsMade media _ attempt member
    have empty := one.2
    rw [List.isEmpty_iff.mp empty] at member
    cases member
  · trivial

/-- The object of the one variant of the recording is intact. -/
theorem recording_intact : ∃ s, (machine sampleDeployment).Reachable ExclusiveAttempts s ∧
    s.rows.media.processingStatus = .completed ∧ s.rows.variants.length = 1 ∧
      ∀ variant ∈ s.rows.variants, ∃ publication ∈ s.publications,
        ∃ artifact ∈ publication.upload.artifacts, ∃ content,
          Intact sampleDeployment s.objects publication.upload artifact variant content := by
  obtain ⟨s, reached, observed⟩ := (machine sampleDeployment).reachable_of_observed
    OneAttempt (fun s => (s.rows.media.processingStatus, s.rows.variants.length))
    (.completed, 1) (toHandler 0 ++ toPublication 0 [1] ++ toEnd 0) recordingStart_initial
    (by decide)
  simp only [Prod.mk.injEq] at observed
  have admitted := reached.mono OneAttempt.exclusive
  exact ⟨s, admitted, observed.1, observed.2,
    published_objectsIntact sampleDeployment s admitted observed.1⟩

/-- A worker stalls in its handler for longer than its lease. The redelivery under the same attempt
publishes, and the late worker uploads to the same keys and removes them again. -/
def sharedAttempt : List Event :=
  toHandler 0 ++ [.tick 60000] ++ toHandler 1 ++ toPublication 1 [1] ++ toEnd 1 ++
    toPublication 0 [2] ++
    [.publish .ok "", .remove true, .remove true, .remove true].map (Event.run 0)

/-- The published object is gone although every transaction was truthful. -/
theorem recording_not_objectsIntact : ¬ ObjectsIntact sampleDeployment Truthful := by
  intro intact
  obtain ⟨s, reached, observed⟩ := (machine sampleDeployment).reachable_of_observed Truthful
    (fun s => (s.rows.media.processingStatus,
      s.rows.variants.map fun variant => s.objects ⟨variant.bucket, variant.objectKey⟩))
    (.completed, [none]) sharedAttempt recordingStart_initial (by decide)
  simp only [Prod.mk.injEq] at observed
  obtain ⟨done, gone⟩ := observed
  obtain ⟨variant, only, missing⟩ : ∃ variant, s.rows.variants = [variant] ∧
      s.objects ⟨variant.bucket, variant.objectKey⟩ = none := by
    obtain ⟨variant, rest, split, missing, others⟩ := List.map_eq_cons_iff.mp gone
    exact ⟨variant, by rw [split, List.map_eq_nil_iff.mp others], missing⟩
  obtain ⟨publication, _, artifact, _, content, found⟩ :=
    intact s reached done variant (by simp [only])
  have stored := found.stored
  rw [missing] at stored
  cases stored

end PostsMedia.Processing
