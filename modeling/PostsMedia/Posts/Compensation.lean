import Mathlib.Data.List.Nodup
import PostsMedia.Idempotency.Service
import PostsMedia.Posts.Originals

namespace PostsMedia.Compensation

open Idempotency

open Promotion (Intake ValidatedFile Target)

/-- The statements of the two domain transactions before the commit. -/
inductive Statement
  | createPost
  | lockPost
  | aggregate
  | createMedia (index : Nat)
  | createDispatch (index : Nat)
  | finalize
  deriving DecidableEq

/-- What goes wrong in one call. The storage adapter writes and then asks for the object, so a put
or a copy may fail after its write. -/
structure Faults where
  put : Nat → Fate
  copy : Nat → Fate
  unstaged : Nat → Bool
  fails : Statement → Bool
  commit : Fate
  removed : ObjectRef → Bool
  mark : Fate

/-- The storage, the tables and the key of one call, and the objects that it wrote and that are
still there. -/
structure World where
  objects : ObjectRef → Option Bytes
  written : ObjectRef → Bool
  tables : Tables
  row : Option Row

namespace World

variable (w : World)

def put (ref : ObjectRef) (content : Bytes) : World :=
  { w with
    objects := Function.update w.objects ref (some content)
    written := Function.update w.written ref true }

/-- The server-side copy takes the bytes that are there. -/
def copy (source destination : ObjectRef) : World :=
  match w.objects source with
  | some content => w.put destination content
  | none => w

/-- A failed removal is swallowed. -/
def remove (ref : ObjectRef) (removed : Bool) : World :=
  if removed then
    { w with
      objects := Function.update w.objects ref none
      written := Function.update w.written ref false }
  else w

end World

/-- What the caller of a service sees. A database error is thrown again as it is. -/
inductive Result
  | returned (body : Json)
  | threw (error : Option DomainError)

def originalPromotionFailed : DomainError where
  code := "ORIGINAL_PROMOTION_FAILED"
  message := "The uploaded media could not be stored."
  httpStatus := 503

section Call

variable (intake : Intake) (r : Nat) (faults : Faults)

/-- The promotion loop from one upload on. It ends with the originals that it has recorded. -/
def promoteAll : Nat → List (ValidatedFile intake.sha256) → List ObjectRef → World →
    World × Except (List ObjectRef) (List ObjectRef)
  | _, [], promoted, w => (w, .ok promoted)
  | index, file :: rest, promoted, w =>
      let staging := intake.stagingRef r file
      let original := intake.originalRef r index file
      let staged := w.put staging file.content
      match faults.put index with
      | .refused => (w, .error promoted)
      | .unacknowledged => (staged, .error promoted)
      | .ok =>
          match faults.copy index with
          | .refused => (staged.remove staging (faults.unstaged index), .error promoted)
          | .unacknowledged =>
              ((staged.copy staging original).remove staging (faults.unstaged index),
                .error promoted)
          | .ok => promoteAll (index + 1) rest (promoted ++ [original])
              ((staged.copy staging original).remove staging (faults.unstaged index))

/-- The inserts of the transaction from one upload on. The foreign key needs the post. -/
def createUploads (postId : String) (start : Nat) : Nat → List PromotedUpload → Tables →
    Option (Tables × List Media)
  | _, [], tables => some (tables, [])
  | index, upload :: rest, tables =>
      let created := createWithDispatch (upload.input postId (start + index))
      if faults.fails (.createMedia index) = true ∨ tables.posts.any (·.id = postId) = false ∨
          faults.fails (.createDispatch index) = true then none
      else (createUploads postId start (index + 1) rest (tables.insert [] [created])).map
        fun (after, media) => (after, created.1 :: media)

/-- The first sort position that the transaction uses. -/
def startingSortOrder (target : Target) (tables : Tables) : Nat :=
  match target with
  | .createPost _ => 0
  | .addPostMedia postId => tables.nextSortOrder postId

/-- The domain transaction, statement by statement, with the outcome for its key. -/
def transact (promoted : List ObjectRef) (tables : Tables) : Option (Tables × IdempotentOutcome) :=
  let uploads := intake.promotedUploads r promoted
  match (intake.submission r).target with
  | .createPost post =>
      if faults.fails .createPost then none
      else (createUploads faults post.id 0 0 uploads (tables.insert [post] [])).bind
        fun (after, media) =>
          if faults.fails .finalize then none
          else some (after,
            { responseStatus := 201
              responseBody := intake.presentPost post media
              targetResourceId := some post.id })
  | .addPostMedia postId =>
      if faults.fails .lockPost || faults.fails .aggregate then none
      else (createUploads faults postId (startingSortOrder (.addPostMedia postId) tables) 0 uploads
          tables).bind fun (after, media) =>
        if faults.fails .finalize then none
        else some (after,
          { responseStatus := 201
            responseBody := intake.presentAdded media
            targetResourceId := some postId })

/-- Both `catch` blocks remove the recorded originals and mark the key. -/
def compensate (promoted : List ObjectRef) (w : World) : World :=
  let cleared := promoted.foldl (fun w ref => w.remove ref (faults.removed ref)) w
  if faults.mark.tookEffect then
    { cleared with row := cleared.row.map (·.markRetryableFailure) }
  else cleared

/-- The second `try` block with its `catch`. -/
def persist (now : Time) (promoted : List ObjectRef) (w : World) : World × Result :=
  match transact intake r faults promoted w.tables with
  | none => (compensate faults promoted w, .threw none)
  | some (tables, outcome) =>
      let committed : World := { w with
        tables := tables
        row := w.row.map (·.finalize outcome now) }
      match faults.commit with
      | .ok => (committed, .returned outcome.responseBody)
      | .refused => (compensate faults promoted w, .threw none)
      | .unacknowledged => (compensate faults promoted committed, .threw none)

/-- `execute` of a call that has acquired its key and validated its files. -/
def execute (now : Time) (w : World) : World × Result :=
  match promoteAll intake r faults 0 (intake.files r) [] w with
  | (after, .error promoted) =>
      (compensate faults promoted after, .threw (some originalPromotionFailed))
  | (after, .ok promoted) => persist intake r faults now promoted after

end Call

/-- The call works under its key and has not written an object yet. -/
structure Acquired (w : World) : Prop where
  key : w.row.isSome = true
  unwritten : ∀ ref, w.written ref = false

/-- The removals succeed, and the commit reports its outcome. -/
structure Truthful (faults : Faults) : Prop where
  unstaged : ∀ index, faults.unstaged index = true
  removed : ∀ ref, faults.removed ref = true
  commit : faults.commit ≠ .unacknowledged

/-- Nothing of the call is left. -/
structure Undone (before after : World) : Prop where
  objects : ∀ ref, after.written ref = false
  tables : after.tables = before.tables

/-- The originals of a request in upload order. -/
def originals (intake : Intake) (r : Nat) : List ObjectRef :=
  (intake.files r).zipIdx.map fun (file, index) => intake.originalRef r index file

/-- The rows that a request creates, in upload order. -/
def created (intake : Intake) (r : Nat) (tables : Tables) : List (Media × ProcessingDispatch) :=
  createAllWithDispatch (intake.postId r) (startingSortOrder (intake.submission r).target tables)
    (intake.promotedUploads r (originals intake r))

def Target.posts : Target → List Post
  | .createPost post => [post]
  | .addPostMedia _ => []

/-- Everything of the call is stored. -/
structure Stored (intake : Intake) (r : Nat) (before after : World) : Prop where
  tables : after.tables = before.tables.insert (Target.posts (intake.submission r).target)
    (created intake r before.tables)
  rows : (created intake r before.tables).length = (intake.files r).length
  originals : ∀ index file, (intake.files r)[index]? = some file →
    after.objects (intake.originalRef r index file) = some file.content
  staging : ∀ file ∈ intake.files r, after.objects (intake.stagingRef r file) = none
  written : ∀ ref, after.written ref = true ↔ ref ∈ Compensation.originals intake r
  count : (Compensation.originals intake r).Nodup ∧
    (Compensation.originals intake r).length = (intake.files r).length
  key : ∃ row, after.row = some row ∧ row.state = .finalized

/-- The call leaves all of its work or none of it. -/
def AllOrNothing (intake : Intake) (r : Nat) (faults : Faults) (now : Time) (before : World) :
    Prop :=
  match execute intake r faults now before with
  | (after, .returned _) => Stored intake r before after
  | (after, .threw _) => Undone before after

/-- The first put or copy from here on that fails has not written its object. -/
def FailsUnwritten (faults : Faults) (start count : Nat) : Prop :=
  ∀ k < count, (∀ j < k, faults.put (start + j) = .ok ∧ faults.copy (start + j) = .ok) →
    faults.put (start + k) ≠ .unacknowledged ∧
      (faults.put (start + k) = .ok → faults.copy (start + k) ≠ .unacknowledged)

section Loop

variable {intake : Intake} {r : Nat} {faults : Faults} {w : World} {index count : Nat}
variable {promoted : List ObjectRef} {file : ValidatedFile intake.sha256}

/-- The copy finds the bytes that the call has just staged. -/
theorem copy_put (source destination : ObjectRef) (content : Bytes) :
    (w.put source content).copy source destination =
      (w.put source content).put destination content := by
  simp [World.copy, World.put]

/-- The loop has come to this upload, and exactly the recorded originals are written. -/
structure Going (intake : Intake) (r index : Nat) (promoted : List ObjectRef) (w : World) :
    Prop where
  holds : Promotion.Promoted intake w.objects r index promoted
  written : ∀ ref, w.written ref = true ↔ ref ∈ promoted
  unstaged : ∀ file ∈ (intake.files r).take index, w.objects (intake.stagingRef r file) = none

/-- The recorded originals belong to the earlier uploads. -/
theorem Going.mem (going : Going intake r index promoted w) {ref : ObjectRef}
    (member : ref ∈ promoted) : ∃ k file, k < index ∧ (intake.files r)[k]? = some file ∧
      ref = intake.originalRef r k file := by
  obtain ⟨k, inside, rfl⟩ := List.getElem_of_mem member
  obtain ⟨file, submitted, same, _⟩ :=
    going.holds.stored k promoted[k] (List.getElem?_eq_getElem inside)
  exact ⟨k, file, going.holds.length ▸ inside, submitted, same⟩

theorem Going.staging_not_mem (going : Going intake r index promoted w) :
    intake.stagingRef r file ∉ promoted := by
  intro member
  obtain ⟨_, _, _, _, same⟩ := going.mem member
  exact Promotion.stagingRef_ne_originalRef same

theorem Going.original_not_mem (going : Going intake r index promoted w) :
    intake.originalRef r index file ∉ promoted := by
  intro member
  obtain ⟨k, _, earlier, _, same⟩ := going.mem member
  have equal := (Promotion.originalRef_inj same).2
  omega

/-- One upload passes through the staging object and leaves its original. -/
theorem Going.next (going : Going intake r index promoted w)
    (submitted : (intake.files r)[index]? = some file) :
    Going intake r (index + 1) (promoted ++ [intake.originalRef r index file])
      (((w.put (intake.stagingRef r file) file.content).copy (intake.stagingRef r file)
        (intake.originalRef r index file)).remove (intake.stagingRef r file) true) := by
  have different : intake.stagingRef r file ≠ intake.originalRef r index file :=
    Promotion.stagingRef_ne_originalRef
  rw [copy_put]
  refine ⟨?_, fun ref => ?_, fun other member => ?_⟩
  · have staged : Promotion.Promoted intake
        (w.put (intake.stagingRef r file) file.content).objects r index promoted :=
      going.holds.frame Promotion.sameOriginals_staging
    exact (staged.push submitted).frame Promotion.sameOriginals_staging
  · show Function.update
        (Function.update (Function.update w.written (intake.stagingRef r file) true)
          (intake.originalRef r index file) true)
        (intake.stagingRef r file) false ref = true ↔ _
    rw [List.mem_append, List.mem_singleton, ← going.written]
    by_cases staging : ref = intake.stagingRef r file
    · subst staging
      have absent : intake.stagingRef r file ∉ promoted := going.staging_not_mem
      rw [← going.written] at absent
      simp [absent, different]
    · by_cases original : ref = intake.originalRef r index file
      · simp [original, different.symm]
      · simp [staging, original]
  · show Function.update (Function.update (Function.update w.objects (intake.stagingRef r file)
        (some file.content)) (intake.originalRef r index file) (some file.content))
        (intake.stagingRef r file) none (intake.stagingRef r other) = none
    by_cases same : intake.stagingRef r other = intake.stagingRef r file
    · rw [same, Function.update_self]
    · rw [Function.update_of_ne same, Function.update_of_ne Promotion.stagingRef_ne_originalRef,
        Function.update_of_ne same]
      have inside : other ∈ (intake.files r).take index ∨ other = file := by
        rw [List.take_add_one, submitted] at member
        simpa using member
      rcases inside with earlier | rfl
      · exact going.unstaged other earlier
      · exact absurd rfl same

/-- The condition for the uploads from here on needs only the later ones when this one succeeds. -/
theorem failsUnwritten_succ (put : faults.put index = .ok) (copy : faults.copy index = .ok) :
    FailsUnwritten faults index (count + 1) ↔ FailsUnwritten faults (index + 1) count := by
  constructor
  · intro unwritten k inside earlier
    have shifted : index + 1 + k = index + (k + 1) := by omega
    rw [shifted]
    apply unwritten (k + 1) (by omega)
    intro j before
    cases j with
    | zero => exact ⟨put, copy⟩
    | succ j =>
        have shifted : index + (j + 1) = index + 1 + j := by omega
        rw [shifted]
        exact earlier j (by omega)
  · intro unwritten k inside earlier
    cases k with
    | zero => simp [put, copy]
    | succ k =>
        have shifted : index + (k + 1) = index + 1 + k := by omega
        rw [shifted]
        apply unwritten k (by omega)
        intro j before
        have shifted : index + 1 + j = index + (j + 1) := by omega
        rw [shifted]
        exact earlier (j + 1) (by omega)

/-- The first upload decides when it fails. -/
theorem failsUnwritten_stop
    (stops : ¬ (faults.put index = .ok ∧ faults.copy index = .ok)) :
    FailsUnwritten faults index (count + 1) ↔ faults.put index ≠ .unacknowledged ∧
      (faults.put index = .ok → faults.copy index ≠ .unacknowledged) := by
  constructor
  · intro unwritten
    exact unwritten 0 (by omega) fun j before => absurd before (Nat.not_lt_zero j)
  · intro here k inside earlier
    cases k with
    | zero => exact here
    | succ k => exact absurd (earlier 0 (by omega)) stops

/-- What the loop leaves behind. -/
def Looped (intake : Intake) (r : Nat) (faults : Faults) (w : World) (index count : Nat) :
    World × Except (List ObjectRef) (List ObjectRef) → Prop
  | (after, .ok promoted) => Going intake r (index + count) promoted after ∧
      after.tables = w.tables ∧ after.row = w.row ∧ FailsUnwritten faults index count
  | (after, .error promoted) => after.tables = w.tables ∧
      ((∀ ref, after.written ref = true → ref ∈ promoted) ↔ FailsUnwritten faults index count)

/-- The loop keeps the tables and the key, and it records what it wrote exactly when its first
failure has not written its object. -/
theorem promoteAll_looped (unstaged : ∀ index, faults.unstaged index = true)
    {rest : List (ValidatedFile intake.sha256)} (left : (intake.files r).drop index = rest)
    (going : Going intake r index promoted w) :
    Looped intake r faults w index rest.length
      (promoteAll intake r faults index rest promoted w) := by
  induction rest generalizing index promoted w with
  | nil =>
      refine ⟨going, rfl, rfl, ?_⟩
      intro k inside
      exact absurd inside (Nat.not_lt_zero k)
  | cons file rest ih =>
      have submitted : (intake.files r)[index]? = some file := by
        have first := congrArg (·[0]?) left
        simpa using first
      have later : (intake.files r).drop (index + 1) = rest := by
        rw [← List.drop_drop, left, List.drop_one, List.tail_cons]
      have different : intake.originalRef r index file ≠ intake.stagingRef r file :=
        Promotion.stagingRef_ne_originalRef.symm
      have recorded : ∀ ref, w.written ref = true → ref ∈ promoted :=
        fun ref => (going.written ref).mp
      simp only [promoteAll, unstaged, List.length_cons]
      cases put : faults.put index with
      | refused =>
          refine ⟨rfl, ?_⟩
          rw [failsUnwritten_stop (by simp [put])]
          simpa [put] using recorded
      | unacknowledged =>
          refine ⟨rfl, ?_⟩
          rw [failsUnwritten_stop (by simp [put])]
          have stays : ¬ ∀ ref, (w.put (intake.stagingRef r file) file.content).written ref = true →
              ref ∈ promoted :=
            fun all => going.staging_not_mem (all _ (Function.update_self ..))
          simpa [put] using stays
      | ok =>
          cases copy : faults.copy index with
          | refused =>
              refine ⟨rfl, ?_⟩
              rw [failsUnwritten_stop (by simp [copy])]
              have removed : ∀ ref, ((w.put (intake.stagingRef r file) file.content).remove
                  (intake.stagingRef r file) true).written ref = true → ref ∈ promoted := by
                intro ref here
                simp only [World.remove, World.put, if_true, Function.update_idem] at here
                by_cases same : ref = intake.stagingRef r file
                · rw [same, Function.update_self] at here
                  cases here
                · rw [Function.update_of_ne same] at here
                  exact recorded ref here
              simpa [put, copy] using removed
          | unacknowledged =>
              rw [copy_put]
              refine ⟨rfl, ?_⟩
              rw [failsUnwritten_stop (by simp [copy])]
              have here : (((w.put (intake.stagingRef r file) file.content).put
                  (intake.originalRef r index file) file.content).remove
                  (intake.stagingRef r file) true).written (intake.originalRef r index file) =
                    true := by
                simp [World.remove, World.put, different]
              have stays : ¬ ∀ ref, (((w.put (intake.stagingRef r file) file.content).put
                  (intake.originalRef r index file) file.content).remove
                  (intake.stagingRef r file) true).written ref = true → ref ∈ promoted :=
                fun all => going.original_not_mem (all _ here)
              simpa [put, copy] using stays
          | ok =>
              have rested := ih later (going.next submitted)
              rw [copy_put] at rested ⊢
              have count : index + 1 + rest.length = index + (rest.length + 1) := by omega
              revert rested
              generalize promoteAll intake r faults (index + 1) rest _ _ = result
              intro rested
              obtain ⟨after, kept | done⟩ := result
              · obtain ⟨tables, clean⟩ := rested
                exact ⟨tables, clean.trans (failsUnwritten_succ put copy).symm⟩
              · obtain ⟨going', tables, row, clean⟩ := rested
                exact ⟨count ▸ going', tables, row, (failsUnwritten_succ put copy).mpr clean⟩

/-- A loop that recorded everything recorded the originals of the request. -/
theorem Going.originals (going : Going intake r (intake.files r).length promoted w) :
    promoted = originals intake r := by
  apply List.ext_getElem?
  intro k
  simp only [Compensation.originals, List.getElem?_map, List.getElem?_zipIdx, Option.map_map]
  cases present : promoted[k]? with
  | none =>
      have past := List.getElem?_eq_none_iff.mp present
      rw [going.holds.length] at past
      simp [List.getElem?_eq_none past]
  | some ref =>
      obtain ⟨file, submitted, same, _⟩ := going.holds.stored k ref present
      simp [submitted, same]

theorem originals_nodup (intake : Intake) (r : Nat) : (originals intake r).Nodup := by
  have positions : ((intake.files r).zipIdx.map Prod.snd).Nodup := by
    rw [List.zipIdx_map_snd]
    exact List.nodup_range'
  apply List.Nodup.map_on _ positions.of_map
  rintro ⟨file, index⟩ member ⟨file', index'⟩ member' same
  obtain ⟨_, equal⟩ := Promotion.originalRef_inj same
  subst equal
  have here := List.mk_mem_zipIdx_iff_getElem?.mp member
  have here' := List.mk_mem_zipIdx_iff_getElem?.mp member'
  rw [here] at here'
  rw [Option.some.inj here']

@[simp] theorem originals_length (intake : Intake) (r : Nat) :
    (originals intake r).length = (intake.files r).length := by
  simp [originals]

end Loop

section Transaction

variable {intake : Intake} {r : Nat} {faults : Faults}

theorem insert_insert (tables : Tables) (posts posts' : List Post)
    (rows rows' : List (Media × ProcessingDispatch)) :
    (tables.insert posts rows).insert posts' rows' =
      tables.insert (posts ++ posts') (rows ++ rows') := by
  simp [Tables.insert]

/-- The inserts of a transaction that goes through are the rows in upload order. -/
theorem createUploads_eq {postId : String} {start index : Nat} {uploads : List PromotedUpload}
    {tables after : Tables} {media : List Media}
    (went : createUploads faults postId start index uploads tables = some (after, media)) :
    after = tables.insert [] ((uploads.zipIdx index).map fun (upload, k) =>
      createWithDispatch (upload.input postId (start + k))) := by
  induction uploads generalizing index tables media with
  | nil =>
      simp only [createUploads, Option.some.injEq, Prod.mk.injEq] at went
      rw [← went.1]
      simp [Tables.insert]
  | cons upload rest ih =>
      simp only [createUploads] at went
      split at went
      · cases went
      · obtain ⟨⟨later, others⟩, inserted, same⟩ := Option.map_eq_some_iff.mp went
        cases same
        rw [ih inserted, insert_insert]
        rfl

/-- A transaction that goes through inserts its post, if it has one, and all rows. -/
theorem transact_eq {promoted : List ObjectRef} {tables after : Tables}
    {outcome : IdempotentOutcome}
    (went : transact intake r faults promoted tables = some (after, outcome)) :
    after = tables.insert (Target.posts (intake.submission r).target)
      (createAllWithDispatch (intake.postId r)
        (startingSortOrder (intake.submission r).target tables)
        (intake.promotedUploads r promoted)) := by
  simp only [transact] at went
  simp only [Intake.postId]
  cases target : (intake.submission r).target with
  | createPost post =>
      simp only [target] at went
      split at went
      · cases went
      · obtain ⟨⟨later, media⟩, inserted, finalized⟩ := Option.bind_eq_some_iff.mp went
        have rows := createUploads_eq inserted
        rw [insert_insert] at rows
        split at finalized <;> cases finalized
        exact rows
  | addPostMedia postId =>
      simp only [target] at went
      split at went
      · cases went
      · obtain ⟨⟨later, media⟩, inserted, finalized⟩ := Option.bind_eq_some_iff.mp went
        have rows := createUploads_eq inserted
        split at finalized <;> cases finalized
        exact rows

end Transaction

section Outcome

variable {intake : Intake} {r : Nat} {faults : Faults} {w : World} {promoted : List ObjectRef}

/-- The compensation removes exactly what is recorded. -/
theorem compensate_written (removed : ∀ ref, faults.removed ref = true) (w : World)
    (promoted : List ObjectRef) (ref : ObjectRef) :
    (compensate faults promoted w).written ref = true ↔ w.written ref = true ∧ ref ∉ promoted := by
  have cleared (w : World) :
      (promoted.foldl (fun w ref => w.remove ref (faults.removed ref)) w).written ref = true ↔
        w.written ref = true ∧ ref ∉ promoted := by
    induction promoted generalizing w with
    | nil => simp
    | cons first rest ih =>
        rw [List.foldl_cons, ih, removed]
        by_cases same : ref = first
        · subst same
          simp [World.remove]
        · simp [World.remove, same]
  unfold compensate
  split
  · exact cleared w
  · exact cleared w

theorem compensate_tables (w : World) (promoted : List ObjectRef) :
    (compensate faults promoted w).tables = w.tables := by
  have cleared (w : World) :
      (promoted.foldl (fun w ref => w.remove ref (faults.removed ref)) w).tables = w.tables := by
    induction promoted generalizing w with
    | nil => rfl
    | cons first rest ih =>
        rw [List.foldl_cons, ih]
        unfold World.remove
        split <;> rfl
  unfold compensate
  split
  · exact cleared w
  · exact cleared w

/-- A call that throws left nothing exactly when it has recorded what it wrote. -/
theorem undone_compensate (removed : ∀ ref, faults.removed ref = true) {after : World}
    (tables : after.tables = w.tables) :
    Undone w (compensate faults promoted after) ↔
      ∀ ref, after.written ref = true → ref ∈ promoted := by
  constructor
  · intro undone ref here
    by_contra unrecorded
    have stays := (compensate_written removed after promoted ref).mpr ⟨here, unrecorded⟩
    rw [undone.objects] at stays
    cases stays
  · intro recorded
    refine ⟨fun ref => ?_, (compensate_tables after promoted).trans tables⟩
    rw [← Bool.not_eq_true, compensate_written removed]
    exact fun ⟨here, unrecorded⟩ => unrecorded (recorded ref here)

/-- A call that commits stores everything. -/
theorem stored_of_going (acquired : Acquired w) {after : World}
    (going : Going intake r (intake.files r).length promoted after)
    (tables : after.tables = w.tables) (row : after.row = w.row) {written : Tables}
    {outcome : IdempotentOutcome} {now : Time}
    (went : transact intake r faults promoted after.tables = some (written, outcome)) :
    Stored intake r w { after with
      tables := written
      row := after.row.map (·.finalize outcome now) } := by
  obtain rfl := going.originals
  refine ⟨?_, ?_, ?_, ?_, going.written, ⟨originals_nodup intake r, originals_length intake r⟩, ?_⟩
  · rw [transact_eq went, tables]
    rfl
  · simp [created, Intake.promotedUploads]
  · intro index file submitted
    have present : (originals intake r)[index]? = some (intake.originalRef r index file) := by
      simp [originals, submitted]
    obtain ⟨file', submitted', _, stored⟩ := going.holds.stored index _ present
    rw [submitted] at submitted'
    cases submitted'
    exact stored
  · intro file member
    apply going.unstaged
    rw [List.take_length]
    exact member
  · obtain ⟨key, present⟩ := Option.isSome_iff_exists.mp acquired.key
    exact ⟨key.finalize outcome now, by simp [row, present], rfl⟩

/-- With removals that succeed and truthful commits a call is all or nothing exactly when the first
put or copy that fails has not written its object. -/
theorem execute_allOrNothing_iff (intake : Intake) (r : Nat) (faults : Faults) (now : Time)
    (before : World) (acquired : Acquired before) (truthful : Truthful faults) :
    AllOrNothing intake r faults now before ↔
      FailsUnwritten faults 0 (intake.files r).length := by
  have start : Going intake r 0 [] before :=
    ⟨⟨rfl, by simp⟩, by simp [acquired.unwritten], by simp⟩
  have looped := promoteAll_looped truthful.unstaged (List.drop_zero ..) start
  revert looped
  simp only [AllOrNothing, execute]
  generalize promoteAll intake r faults 0 (intake.files r) [] before = result
  intro looped
  obtain ⟨after, promoted | promoted⟩ := result
  · obtain ⟨tables, clean⟩ := looped
    exact (undone_compensate truthful.removed tables).trans clean
  · obtain ⟨going, tables, row, clean⟩ := looped
    rw [Nat.zero_add] at going
    have undone : Undone before (compensate faults promoted after) :=
      (undone_compensate truthful.removed tables).mpr fun ref => (going.written ref).mp
    simp only [iff_true_intro clean, iff_true, persist]
    cases went : transact intake r faults promoted after.tables with
    | none => exact undone
    | some result =>
        obtain ⟨written, outcome⟩ := result
        cases commit : faults.commit with
        | ok => exact stored_of_going acquired going tables row went
        | refused => exact undone
        | unacknowledged => exact absurd commit truthful.commit

/-- The first client has acquired its key on empty tables and an empty storage. -/
def acquiredWorld : World where
  objects _ := none
  written _ := false
  tables := ⟨[], [], []⟩
  row := some (IdempotencyRequest.create .createPost "fingerprint" 0 900000 86400000)

theorem acquiredWorld_acquired : Acquired acquiredWorld := ⟨rfl, fun _ => rfl⟩

/-- The last file fails before its copy is written, and the database would work. -/
def refusedCopy (last : Nat) : Faults where
  put _ := .ok
  copy index := if index = last then .refused else .ok
  unstaged _ := true
  fails _ := false
  commit := .ok
  removed _ := true
  mark := .ok

theorem refusedCopy_truthful (last : Nat) : Truthful (refusedCopy last) :=
  ⟨fun _ => rfl, fun _ => rfl, by simp [refusedCopy]⟩

/-- Without a failure the image is stored with its row, and after a refused copy nothing is. -/
theorem image_allOrNothing :
    (execute (Promotion.imagePosts none) 0 (refusedCopy 1) 0
        acquiredWorld).1.tables.media.length = 1 ∧
      AllOrNothing (Promotion.imagePosts none) 0 (refusedCopy 1) 0 acquiredWorld ∧
      AllOrNothing (Promotion.imagePosts none) 0 (refusedCopy 0) 0 acquiredWorld := by
  have unwritten (last : Nat) : FailsUnwritten (refusedCopy last) 0 1 := by
    intro k inside earlier
    simp only [refusedCopy, ne_eq, reduceCtorEq, not_false_eq_true, true_implies, true_and]
    split <;> simp
  refine ⟨by decide, ?_, ?_⟩
  · exact (execute_allOrNothing_iff _ 0 _ 0 _ acquiredWorld_acquired (refusedCopy_truthful 1)).mpr
      (unwritten 1)
  · exact (execute_allOrNothing_iff _ 0 _ 0 _ acquiredWorld_acquired (refusedCopy_truthful 0)).mpr
      (unwritten 0)

/-- The put of the first image fails after its write. -/
def lostPut : Faults := { refusedCopy 1 with put := fun _ => .unacknowledged }

/-- The copy of the first image fails after its write. -/
def lostCopy : Faults := { refusedCopy 1 with copy := fun _ => .unacknowledged }

/-- A put whose answer is lost leaves its staging object, and such a copy leaves its original. -/
theorem image_leftBehind : Acquired acquiredWorld ∧
    (Truthful lostPut ∧
      ¬ AllOrNothing (Promotion.imagePosts none) 0 lostPut 0 acquiredWorld) ∧
    (Truthful lostCopy ∧
      ¬ AllOrNothing (Promotion.imagePosts none) 0 lostCopy 0 acquiredWorld) := by
  refine ⟨acquiredWorld_acquired,
    ⟨⟨fun _ => rfl, fun _ => rfl, by simp [lostPut, refusedCopy]⟩, ?_⟩,
    ⟨fun _ => rfl, fun _ => rfl, by simp [lostCopy, refusedCopy]⟩, ?_⟩
  · intro undone
    have gone := Undone.objects undone ⟨"temporary", "uploads/a/0"⟩
    exact absurd gone (by decide)
  · intro undone
    have gone := Undone.objects undone ⟨"originals", "posts/post-0/b/original.png"⟩
    exact absurd gone (by decide)

end Outcome

section Refinement

variable {intake : Intake} {r : Nat} {faults : Faults} {w : World} {u : Promotion.State}
variable {index : Nat} {promoted : List ObjectRef}

/-- The call has the storage and the tables of this state. -/
def World.In (w : World) (u : Promotion.State) : Prop :=
  u.objects = w.objects ∧ u.tables = w.tables

/-- The compensation is a path of the requests. -/
theorem path_of_compensate (inside : w.In u) (started : u.requests r = .compensating promoted) :
    ∃ v, (Promotion.machine intake).Path Machine.anything u v ∧
      (compensate faults promoted w).In v ∧ v.requests r = .ended := by
  have cleared : ∃ v, (Promotion.machine intake).Path Machine.anything u v ∧
      (promoted.foldl (fun w ref => w.remove ref (faults.removed ref)) w).In v ∧
      v.requests r = .ended := by
    induction promoted generalizing u w with
    | nil =>
        have taken : (Promotion.machine intake).step u (.compensate r true) =
            some (u.goto r .ended) := by
          simp only [Promotion.machine, Promotion.step, Promotion.stepCompensate, started]
        exact ⟨_, .single _ trivial taken, inside, by simp [Promotion.State.goto]⟩
    | cons ref rest ih =>
        have taken : (Promotion.machine intake).step u (.compensate r (faults.removed ref)) =
            some (if faults.removed ref then u.storing r ref none (.compensating rest)
              else u.goto r (.compensating rest)) := by
          simp only [Promotion.machine, Promotion.step, Promotion.stepCompensate, started]
        have next : (w.remove ref (faults.removed ref)).In
            (if faults.removed ref then u.storing r ref none (.compensating rest)
              else u.goto r (.compensating rest)) := by
          unfold World.remove
          split
          · exact ⟨by simp [Promotion.State.storing, inside.1], inside.2⟩
          · exact inside
        obtain ⟨v, path, same, ended⟩ := ih next (by split <;> simp [Promotion.State.storing,
          Promotion.State.goto])
        exact ⟨v, (Machine.Path.single _ trivial taken).trans path, same, ended⟩
  obtain ⟨v, path, same, ended⟩ := cleared
  refine ⟨v, path, ?_, ended⟩
  unfold compensate
  split
  · exact same
  · exact same

/-- The program point behind the loop. -/
def loopEnd : Except (List ObjectRef) (List ObjectRef) → Promotion.Phase
  | .ok promoted => .committing promoted
  | .error promoted => .compensating promoted

/-- One statement of the request brings it to this storage and this program point. -/
def Advances (intake : Intake) (r : Nat) (u : Promotion.State) (w : World)
    (phase : Promotion.Phase) : Prop :=
  ∃ event v, Promotion.step intake u event = some v ∧ w.In v ∧ v.requests r = phase

/-- A write of one object together with the next program point. -/
theorem in_storing (inside : w.In u) (ref : ObjectRef) (content : Option Bytes)
    {phase : Promotion.Phase} {after : World}
    (objects : after.objects = Function.update w.objects ref content)
    (tables : after.tables = w.tables) :
    after.In (u.storing r ref content phase) ∧
      (u.storing r ref content phase).requests r = phase := by
  refine ⟨⟨?_, ?_⟩, ?_⟩
  · rw [objects, ← inside.1]
    rfl
  · rw [tables, ← inside.2]
    rfl
  · simp [Promotion.State.storing]

section Upload

variable {file : ValidatedFile intake.sha256}

theorem advances_put (inside : w.In u) (started : u.requests r = .staging index promoted)
    (submitted : (intake.files r)[index]? = some file) :
    Advances intake r u (w.put (intake.stagingRef r file) file.content) (.copying index promoted) ∧
      Advances intake r u (w.put (intake.stagingRef r file) file.content)
        (.compensating promoted) ∧
      Advances intake r u w (.compensating promoted) := by
  refine ⟨⟨.put r .ok, _, ?_, in_storing inside _ _ rfl rfl⟩,
    ⟨.put r .unacknowledged, _, ?_, in_storing inside _ _ rfl rfl⟩,
    ⟨.put r .refused, u.goto r (.compensating promoted), ?_, inside, ?_⟩⟩
  · simp [Promotion.step, Promotion.stepPut, started, submitted]
  · simp [Promotion.step, Promotion.stepPut, started, submitted]
  · simp [Promotion.step, Promotion.stepPut, started, submitted]
  · simp [Promotion.State.goto]

theorem advances_copy (inside : w.In u) (started : u.requests r = .copying index promoted)
    (submitted : (intake.files r)[index]? = some file)
    (staged : w.objects (intake.stagingRef r file) = some file.content) :
    Advances intake r u (w.copy (intake.stagingRef r file) (intake.originalRef r index file))
        (.unstaging index (promoted ++ [intake.originalRef r index file]) false) ∧
      Advances intake r u (w.copy (intake.stagingRef r file) (intake.originalRef r index file))
        (.unstaging index promoted true) ∧
      Advances intake r u w (.unstaging index promoted true) := by
  have copied : (w.copy (intake.stagingRef r file) (intake.originalRef r index file)).objects =
        Function.update w.objects (intake.originalRef r index file) (some file.content) ∧
      (w.copy (intake.stagingRef r file) (intake.originalRef r index file)).tables = w.tables := by
    simp [World.copy, World.put, staged]
  have present : u.objects (intake.stagingRef r file) = some file.content := inside.1 ▸ staged
  refine ⟨⟨.copy r .ok, _, ?_, in_storing inside _ _ copied.1 copied.2⟩,
    ⟨.copy r .unacknowledged, _, ?_, in_storing inside _ _ copied.1 copied.2⟩,
    ⟨.copy r .refused, u.goto r (.unstaging index promoted true), ?_, inside, ?_⟩⟩
  · simp [Promotion.step, Promotion.stepCopy, started, submitted, present]
  · simp [Promotion.step, Promotion.stepCopy, started, submitted, present]
  · simp [Promotion.step, Promotion.stepCopy, started, submitted]
  · simp [Promotion.State.goto]

theorem advances_unstage {failed : Bool} (inside : w.In u)
    (started : u.requests r = .unstaging index promoted failed)
    (submitted : (intake.files r)[index]? = some file) (removed : Bool) :
    Advances intake r u (w.remove (intake.stagingRef r file) removed)
      (if failed then .compensating promoted
        else Promotion.nextUpload intake r (index + 1) promoted) := by
  cases removed with
  | true =>
      refine ⟨.unstage r true, _, ?_, in_storing inside _ _ rfl rfl⟩
      simp [Promotion.step, Promotion.stepUnstage, started, submitted]
  | false =>
      refine ⟨.unstage r false, u.goto r (if failed then .compensating promoted
        else Promotion.nextUpload intake r (index + 1) promoted), ?_, inside, ?_⟩
      · simp [Promotion.step, Promotion.stepUnstage, started, submitted]
      · simp [Promotion.State.goto]

end Upload

/-- The loop is a path of the requests. -/
theorem path_of_promoteAll {rest : List (ValidatedFile intake.sha256)}
    (left : (intake.files r).drop index = rest) (inside : w.In u)
    (started : u.requests r = Promotion.nextUpload intake r index promoted) :
    ∃ v, (Promotion.machine intake).Path Machine.anything u v ∧
      (promoteAll intake r faults index rest promoted w).1.In v ∧
      v.requests r = loopEnd (promoteAll intake r faults index rest promoted w).2 := by
  induction rest generalizing index promoted w u with
  | nil =>
      have past : ¬ index < (intake.files r).length :=
        Nat.not_lt_of_le (List.drop_eq_nil_iff.mp left)
      rw [Promotion.nextUpload, if_neg past] at started
      exact ⟨u, .refl u, inside, started⟩
  | cons file rest ih =>
      have submitted : (intake.files r)[index]? = some file := by
        have first := congrArg (·[0]?) left
        simpa using first
      have later : (intake.files r).drop (index + 1) = rest := by
        rw [← List.drop_drop, left, List.drop_one, List.tail_cons]
      have before : index < (intake.files r).length := (List.getElem?_eq_some_iff.mp submitted).1
      rw [Promotion.nextUpload, if_pos before] at started
      obtain ⟨stagedOk, stagedLost, stagedNot⟩ := advances_put inside started submitted
      simp only [promoteAll]
      cases faults.put index with
      | refused =>
          obtain ⟨event, v, taken, same, ended⟩ := stagedNot
          exact ⟨v, .single event trivial taken, same, ended⟩
      | unacknowledged =>
          obtain ⟨event, v, taken, same, ended⟩ := stagedLost
          exact ⟨v, .single event trivial taken, same, ended⟩
      | ok =>
          obtain ⟨event, a, taken, inside, started⟩ := stagedOk
          have staged : (w.put (intake.stagingRef r file) file.content).objects
              (intake.stagingRef r file) = some file.content := Function.update_self ..
          obtain ⟨copiedOk, copiedLost, copiedNot⟩ := advances_copy inside started submitted staged
          have first : (Promotion.machine intake).Path Machine.anything u a :=
            .single event trivial taken
          cases faults.copy index with
          | refused =>
              obtain ⟨event, b, taken, inside, started⟩ := copiedNot
              obtain ⟨event', v, taken', same, ended⟩ :=
                advances_unstage inside started submitted (faults.unstaged index)
              exact ⟨v, (first.snoc event trivial taken).snoc event' trivial taken', same, ended⟩
          | unacknowledged =>
              obtain ⟨event, b, taken, inside, started⟩ := copiedLost
              obtain ⟨event', v, taken', same, ended⟩ :=
                advances_unstage inside started submitted (faults.unstaged index)
              exact ⟨v, (first.snoc event trivial taken).snoc event' trivial taken', same, ended⟩
          | ok =>
              obtain ⟨event, b, taken, inside, started⟩ := copiedOk
              obtain ⟨event', c, taken', same, ended⟩ :=
                advances_unstage inside started submitted (faults.unstaged index)
              obtain ⟨v, path, final, phase⟩ := ih later same ended
              exact ⟨v, ((first.snoc event trivial taken).snoc event' trivial taken').trans path,
                final, phase⟩

/-- A transaction that goes through statement by statement is the one-shot transaction. -/
theorem transaction_of_transact {tables after : Tables} {outcome : IdempotentOutcome}
    (posted : ∀ postId, (intake.submission r).target = .addPostMedia postId →
      intake.promotedUploads r promoted ≠ [])
    (went : transact intake r faults promoted tables = some (after, outcome)) :
    intake.transaction r promoted tables = some after := by
  rw [transact_eq went]
  simp only [Intake.transaction, Intake.postId]
  cases target : (intake.submission r).target with
  | createPost post => rfl
  | addPostMedia postId =>
      have found : tables.posts.any (·.id = postId) = true := by
        simp only [transact, target] at went
        split at went
        · cases went
        · obtain ⟨result, inserted, _⟩ := Option.bind_eq_some_iff.mp went
          cases uploads : intake.promotedUploads r promoted with
          | nil => exact absurd uploads (posted postId target)
          | cons upload rest =>
              rw [uploads] at inserted
              simp only [createUploads] at inserted
              split at inserted
              · cases inserted
              · rename_i checked
                simpa using (not_or.mp (not_or.mp checked).2).1
      simp only [addPostMediaTransaction, found, if_true]
      rfl

/-- A loop that ends well has recorded one original for each upload. -/
theorem promoteAll_length {rest : List (ValidatedFile intake.sha256)} {after : World}
    {done : List ObjectRef}
    (ran : promoteAll intake r faults index rest promoted w = (after, .ok done)) :
    done.length = promoted.length + rest.length := by
  induction rest generalizing index promoted w with
  | nil =>
      cases ran
      rfl
  | cons file rest ih =>
      simp only [promoteAll] at ran
      split at ran
      · cases ran
      · cases ran
      · split at ran
        · cases ran
        · cases ran
        · rw [ih ran, List.length_append, List.length_singleton, List.length_cons]
          omega

/-- The transaction and its compensation are a path of the requests. -/
theorem path_of_persist (now : Time) (inside : w.In u)
    (started : u.requests r = .committing promoted)
    (posted : ∀ postId, (intake.submission r).target = .addPostMedia postId →
      intake.promotedUploads r promoted ≠ []) :
    ∃ v, (Promotion.machine intake).Path Machine.anything u v ∧
      (persist intake r faults now promoted w).1.In v ∧ v.requests r = .ended := by
  have rolledBack : ∃ v, (Promotion.machine intake).Path Machine.anything u v ∧
      (compensate faults promoted w).In v ∧ v.requests r = .ended := by
    have taken : Promotion.step intake u (.commit r .refused) =
        some (u.goto r (.compensating promoted)) := by
      simp [Promotion.step, Promotion.stepCommit, started]
    have first : (Promotion.machine intake).Path Machine.anything u
        (u.goto r (.compensating promoted)) := .single (.commit r .refused) trivial taken
    have away : w.In (u.goto r (.compensating promoted)) := inside
    obtain ⟨v, path, same⟩ := path_of_compensate away (Function.update_self ..)
    exact ⟨v, first.trans path, same⟩
  unfold persist
  cases went : transact intake r faults promoted w.tables with
  | none => exact rolledBack
  | some result =>
      obtain ⟨tables, outcome⟩ := result
      have whole := transaction_of_transact posted went
      rw [← inside.2] at whole
      cases faults.commit with
      | refused => exact rolledBack
      | ok =>
          have taken : Promotion.step intake u (.commit r .ok) =
              some (u.writing r tables .ended) := by
            simp [Promotion.step, Promotion.stepCommit, started, whole]
          have path : (Promotion.machine intake).Path Machine.anything u
              (u.writing r tables .ended) := .single (.commit r .ok) trivial taken
          exact ⟨_, path, ⟨inside.1, rfl⟩, by simp [Promotion.State.writing]⟩
      | unacknowledged =>
          have taken : Promotion.step intake u (.commit r .unacknowledged) =
              some (u.writing r tables (.compensating promoted)) := by
            simp [Promotion.step, Promotion.stepCommit, started, whole]
          have first : (Promotion.machine intake).Path Machine.anything u
              (u.writing r tables (.compensating promoted)) :=
            .single (.commit r .unacknowledged) trivial taken
          have away : World.In { w with
                tables := tables
                row := w.row.map (·.finalize outcome now) }
              (u.writing r tables (.compensating promoted)) := ⟨inside.1, rfl⟩
          obtain ⟨v, path, same⟩ := path_of_compensate away (Function.update_self ..)
          exact ⟨v, first.trans path, same⟩

/-- The whole call is a path of the requests. -/
theorem path_of_execute (now : Time)
    (posted : ∀ postId, (intake.submission r).target = .addPostMedia postId →
      intake.files r ≠ []) (inside : w.In u) (idle : u.requests r = .idle) :
    ∃ v, (Promotion.machine intake).Path Machine.anything u v ∧
      (execute intake r faults now w).1.In v ∧ v.requests r = .ended := by
  have taken : Promotion.step intake u (.arrive r) =
      some (u.goto r (Promotion.nextUpload intake r 0 [])) := by
    simp [Promotion.step, idle]
  have first : (Promotion.machine intake).Path Machine.anything u
      (u.goto r (Promotion.nextUpload intake r 0 [])) := .single (.arrive r) trivial taken
  have arrived : w.In (u.goto r (Promotion.nextUpload intake r 0 [])) := inside
  obtain ⟨a, loop, same, phase⟩ :=
    path_of_promoteAll (List.drop_zero ..) arrived (Function.update_self ..)
  have path := first.trans loop
  unfold execute
  cases ran : promoteAll intake r faults 0 (intake.files r) [] w with
  | mk after result =>
      rw [ran] at same phase
      cases result with
      | error promoted =>
          obtain ⟨v, onward, final⟩ := path_of_compensate same phase
          exact ⟨v, path.trans onward, final⟩
      | ok promoted =>
          have length := promoteAll_length ran
          have uploads : ∀ postId, (intake.submission r).target = .addPostMedia postId →
              intake.promotedUploads r promoted ≠ [] := by
            intro postId target none
            have some := List.length_pos_of_ne_nil (posted postId target)
            have empty := congrArg List.length none
            simp only [Intake.promotedUploads, List.length_map, List.length_zipIdx,
              List.length_zip, length, List.length_nil] at empty
            omega
          obtain ⟨v, onward, final⟩ := path_of_persist now same phase uploads
          exact ⟨v, path.trans onward, final⟩

end Refinement

end PostsMedia.Compensation
