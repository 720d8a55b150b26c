import PostsMedia.Posts.Compensation
import PostsMedia.Posts.Rejections

namespace PostsMedia.Exits

open Idempotency hiding Result

open Compensation (Faults World Result compensate promoteAll persist)
open Posts (FileValidationError)
open Promotion (Intake ValidatedFile)

/-- What the calls outside both `try` blocks do. A validation that throws has no errors to
report. -/
structure Checks where
  lookupThrows : Bool
  validation : Option (List FileValidationError)
  finalize : Fate

section Services

variable (intake : Intake) (r submitted : Nat) (checks : Checks) (faults : Faults) (now : Time)

/-- A stored rejection. The failure of its `finalize` is not caught. -/
def finalizeAndThrow (error : DomainError) (w : World) : World × Result :=
  let finalized := { w with row := w.row.map (·.finalize (domainErrorToOutcome error) now) }
  match checks.finalize with
  | .ok => (finalized, .threw (some error))
  | .refused => (w, .threw none)
  | .unacknowledged => (finalized, .threw none)

/-- `CreatePostService.execute` of a call that has acquired its key. -/
def createPost (w : World) : World × Result :=
  match checks.validation with
  | none => (w, .threw none)
  | some errors =>
      if errors.length > 0 then
        finalizeAndThrow checks now (Posts.validationFailedError errors submitted) w
      else Compensation.execute intake r faults now w

/-- `AddPostMediaService.execute` after the lookup of its post. -/
def addMediaToPost (w : World) : World × Result :=
  match checks.validation with
  | none => (w, .threw none)
  | some errors =>
      if (intake.files r).length = 0 then
        finalizeAndThrow checks now (Posts.noFilesAcceptedError errors submitted) w
      else Compensation.execute intake r faults now w

/-- `AddPostMediaService.execute` of a call that has acquired its key. -/
def addPostMedia (postId : String) (w : World) : World × Result :=
  if checks.lookupThrows then (w, .threw none)
  else
    match w.tables.posts.find? (·.id = postId) with
    | none => finalizeAndThrow checks now Posts.postNotFound w
    | some post =>
        if post.deletedAt ≠ none then finalizeAndThrow checks now Posts.postSoftDeleted w
        else addMediaToPost intake r submitted checks faults now w

/-- The service that the request is for. -/
def execute (w : World) : World × Result :=
  match (intake.submission r).target with
  | .createPost _ => createPost intake r submitted checks faults now w
  | .addPostMedia postId => addPostMedia intake r submitted checks faults now postId w

end Services

/-- The call works under its own lease. -/
def Held (r : Nat) (w : World) : Prop :=
  ∃ row, w.row = some row ∧ row.state = .inProgress ∧ row.leaseToken = some r

/-- The key is done or free, so that its next request is replayed or runs again. -/
structure Released (w : World) : Prop where
  row : ∃ row, w.row = some row ∧ (row.state = .finalized ∨ row.state = .retryableFailure) ∧
    row.leaseToken = none
  retry : ∀ row fingerprint later, w.row = some row →
    reconcileExisting row fingerprint later ≠ .settled .inProgress

/-- No call outside the `try` blocks that the request reaches fails without effect. -/
def Guarded (intake : Intake) (r : Nat) (checks : Checks) (w : World) : Prop :=
  match (intake.submission r).target with
  | .createPost _ => ∃ errors, checks.validation = some errors ∧
      (errors ≠ [] → checks.finalize ≠ .refused)
  | .addPostMedia postId => checks.lookupThrows = false ∧
      match w.tables.posts.find? (·.id = postId) with
      | none => checks.finalize ≠ .refused
      | some post =>
          if post.deletedAt ≠ none then checks.finalize ≠ .refused
          else checks.validation.isSome = true ∧
            (intake.files r = [] → checks.finalize ≠ .refused)

section Rows

variable {intake : Intake} {r submitted : Nat} {checks : Checks} {faults : Faults} {now : Time}
variable {w : World}

theorem released_of_row {row : Row} (here : w.row = some row)
    (state : row.state = .finalized ∨ row.state = .retryableFailure)
    (token : row.leaseToken = none) : Released w := by
  refine ⟨⟨row, here, state, token⟩, ?_⟩
  intro row' fingerprint later here'
  have same : row' = row := Option.some.inj (here'.symm.trans here)
  rw [same]
  rcases state with finalized | retryable
  · unfold reconcileExisting
    rw [if_pos finalized]
    split <;> intro same <;> cases same
  · have open_ : row.reclaimable later = true := by
      simp [IdempotencyRequest.reclaimable, retryable]
    have unfinished : row.state ≠ .finalized := by simp [retryable]
    unfold reconcileExisting
    rw [if_neg unfinished, if_neg (by simp [open_])]
    split <;> intro same <;> cases same

theorem Held.not_released (held : Held r w) : ¬ Released w := by
  rintro ⟨⟨row, here, _, token⟩, _⟩
  obtain ⟨row', here', _, token'⟩ := held
  have same : row = row' := Option.some.inj (here.symm.trans here')
  rw [same, token'] at token
  cases token

theorem Held.isSome (held : Held r w) : w.row.isSome = true := by
  obtain ⟨row, here, _⟩ := held
  rw [here]
  rfl

/-- Nothing that the promotion does touches the key. -/
theorem promoteAll_row {index : Nat} {rest : List (ValidatedFile intake.sha256)}
    {promoted : List ObjectRef} :
    (promoteAll intake r faults index rest promoted w).1.row = w.row := by
  have removed (w : World) (ref : ObjectRef) (gone : Bool) :
      (w.remove ref gone).row = w.row := by
    cases gone <;> rfl
  have copied (w : World) (source destination : ObjectRef) :
      (w.copy source destination).row = w.row := by
    unfold World.copy
    split <;> rfl
  induction rest generalizing index promoted w with
  | nil => rfl
  | cons file rest ih =>
      rw [promoteAll]
      split
      · rfl
      · rfl
      · split
        · exact removed ..
        · rw [removed, copied]
          rfl
        · rw [ih, removed, copied]
          rfl

/-- Both `catch` blocks free the key when its mark is written. -/
theorem compensate_released (marks : faults.mark.tookEffect = true) (promoted : List ObjectRef)
    (present : w.row.isSome = true) : Released (compensate faults promoted w) := by
  have cleared (w : World) : (promoted.foldl (fun w ref => w.remove ref (faults.removed ref))
      w).row = w.row := by
    induction promoted generalizing w with
    | nil => rfl
    | cons ref rest ih =>
        rw [List.foldl_cons, ih]
        unfold World.remove
        split <;> rfl
  obtain ⟨row, here⟩ := Option.isSome_iff_exists.mp present
  have marked : (compensate faults promoted w).row = some row.markRetryableFailure := by
    rw [compensate, if_pos marks]
    show (promoted.foldl (fun w ref => w.remove ref (faults.removed ref)) w).row.map _ = _
    rw [cleared, here]
    rfl
  exact released_of_row marked (.inr rfl) rfl

theorem persist_released (marks : faults.mark.tookEffect = true) (promoted : List ObjectRef)
    (present : w.row.isSome = true) : Released (persist intake r faults now promoted w).1 := by
  obtain ⟨row, here⟩ := Option.isSome_iff_exists.mp present
  unfold persist
  split
  · exact compensate_released marks promoted present
  · rename_i tables outcome _
    dsimp only
    split
    · have finalized : w.row.map (·.finalize outcome now) = some (row.finalize outcome now) := by
        rw [here]
        rfl
      exact released_of_row finalized (.inl rfl) rfl
    · exact compensate_released marks promoted present
    · have stored : (w.row.map (·.finalize outcome now)).isSome = true := by
        rw [Option.isSome_map]
        exact present
      exact compensate_released marks promoted stored

/-- From the promotion on every exit frees the key. -/
theorem stored_released (marks : faults.mark.tookEffect = true) (present : w.row.isSome = true) :
    Released (Compensation.execute intake r faults now w).1 := by
  have kept : (promoteAll intake r faults 0 (intake.files r) [] w).1.row.isSome = true := by
    rw [promoteAll_row]
    exact present
  revert kept
  unfold Compensation.execute
  generalize promoteAll intake r faults 0 (intake.files r) [] w = result
  intro kept
  obtain ⟨after, promoted | promoted⟩ := result
  · exact compensate_released marks promoted kept
  · exact persist_released marks promoted kept

/-- A rejection frees the key exactly when its `finalize` is written. -/
theorem finalizeAndThrow_released_iff (held : Held r w) (error : DomainError) :
    Released (finalizeAndThrow checks now error w).1 ↔ checks.finalize ≠ .refused := by
  have ⟨row, here, _⟩ := held
  have finalized : w.row.map (·.finalize (domainErrorToOutcome error) now) =
      some (row.finalize (domainErrorToOutcome error) now) := by
    rw [here]
    rfl
  unfold finalizeAndThrow
  cases fate : checks.finalize with
  | ok => exact iff_of_true (released_of_row finalized (.inl rfl) rfl) nofun
  | refused => exact iff_of_false held.not_released fun differs => differs rfl
  | unacknowledged => exact iff_of_true (released_of_row finalized (.inl rfl) rfl) nofun

theorem createPost_released_iff (held : Held r w) (marks : faults.mark.tookEffect = true) :
    Released (createPost intake r submitted checks faults now w).1 ↔
      ∃ errors, checks.validation = some errors ∧ (errors ≠ [] → checks.finalize ≠ .refused) := by
  unfold createPost
  cases validation : checks.validation with
  | none => exact iff_of_false held.not_released nofun
  | some errors =>
      simp only [Option.some.injEq, exists_eq_left', gt_iff_lt, List.length_pos_iff]
      by_cases accepted : errors = []
      · rw [if_neg (not_not.mpr accepted)]
        exact iff_of_true (stored_released marks held.isSome)
          fun rejected => absurd accepted rejected
      · rw [if_pos accepted, finalizeAndThrow_released_iff held]
        exact ⟨fun written _ => written, fun written => written accepted⟩

theorem addMediaToPost_released_iff (held : Held r w) (marks : faults.mark.tookEffect = true) :
    Released (addMediaToPost intake r submitted checks faults now w).1 ↔
      checks.validation.isSome = true ∧
        (intake.files r = [] → checks.finalize ≠ .refused) := by
  unfold addMediaToPost
  cases validation : checks.validation with
  | none => exact iff_of_false held.not_released fun both => Bool.noConfusion both.1
  | some errors =>
      simp only [Option.isSome_some, true_and, List.length_eq_zero_iff]
      by_cases rejected : intake.files r = []
      · rw [if_pos rejected, finalizeAndThrow_released_iff held]
        exact ⟨fun written _ => written, fun written => written rejected⟩
      · rw [if_neg rejected]
        exact iff_of_true (stored_released marks held.isSome) fun none => absurd none rejected

theorem addPostMedia_released_iff (held : Held r w) (marks : faults.mark.tookEffect = true)
    (postId : String) :
    Released (addPostMedia intake r submitted checks faults now postId w).1 ↔
      checks.lookupThrows = false ∧
        match w.tables.posts.find? (·.id = postId) with
        | none => checks.finalize ≠ .refused
        | some post =>
            if post.deletedAt ≠ none then checks.finalize ≠ .refused
            else checks.validation.isSome = true ∧
              (intake.files r = [] → checks.finalize ≠ .refused) := by
  unfold addPostMedia
  cases lookup : checks.lookupThrows with
  | true =>
      rw [if_pos rfl]
      exact iff_of_false held.not_released fun both => Bool.noConfusion both.1
  | false =>
      rw [if_neg Bool.false_ne_true]
      simp only [true_and]
      cases w.tables.posts.find? (·.id = postId) with
      | none => exact finalizeAndThrow_released_iff held Posts.postNotFound
      | some post =>
          by_cases deleted : post.deletedAt ≠ none
          · simp only [if_pos deleted]
            exact finalizeAndThrow_released_iff held Posts.postSoftDeleted
          · simp only [if_neg deleted]
            exact addMediaToPost_released_iff held marks

end Rows

/-- The calls outside the `try` blocks alone decide whether a call frees its key. -/
theorem execute_released_iff (intake : Intake) (r submitted : Nat) (checks : Checks)
    (faults : Faults) (now : Time) (w : World) (held : Held r w)
    (marks : faults.mark.tookEffect = true) :
    Released (execute intake r submitted checks faults now w).1 ↔ Guarded intake r checks w := by
  unfold execute Guarded
  cases (intake.submission r).target with
  | createPost post => exact createPost_released_iff held marks
  | addPostMedia postId => exact addPostMedia_released_iff held marks postId

/-- The client's key in the world of a call that has just acquired it. -/
def heldWorld (operation : IdempotencyOperation) (r : CallId) : World :=
  { Compensation.acquiredWorld with
    row := some (IdempotencyRequest.create operation "fingerprint" r 900000 86400000) }

theorem heldWorld_held (operation : IdempotencyOperation) (r : CallId) :
    Held r (heldWorld operation r) := ⟨_, rfl, rfl, rfl⟩

/-- Nothing fails outside the `try` blocks. -/
def passing : Checks where
  lookupThrows := false
  validation := some []
  finalize := .ok

/-- A stored image frees its key, and so does one whose copy fails. -/
theorem image_released :
    Released (execute (Promotion.imagePosts none) 0 1 passing (Compensation.refusedCopy 1) 0
      (heldWorld .createPost 0)).1 ∧
    Released (execute (Promotion.imagePosts none) 0 1 passing (Compensation.refusedCopy 0) 0
      (heldWorld .createPost 0)).1 :=
  ⟨(execute_released_iff _ _ _ _ _ _ _ (heldWorld_held .createPost 0) rfl).mpr
      ⟨[], rfl, fun rejected => absurd rfl rejected⟩,
    (execute_released_iff _ _ _ _ _ _ _ (heldWorld_held .createPost 0) rfl).mpr
      ⟨[], rfl, fun rejected => absurd rfl rejected⟩⟩

/-- The database does not answer the lookup of the post. -/
def lostLookup : Checks := { passing with lookupThrows := true }

/-- The second file is empty, and the database refuses the stored rejection. -/
def lostRejection : Checks where
  lookupThrows := false
  validation := some [⟨1, "empty.png", "EMPTY_FILE", "The uploaded file is empty.", none⟩]
  finalize := .refused

/-- Both keys stay under the lease of their call, and a retry is turned away. -/
theorem lostCalls_held :
    (Held 2 (heldWorld .addPostMedia 2) ∧ (Compensation.refusedCopy 0).mark.tookEffect = true ∧
      ¬ Released (execute (Promotion.imagePosts none) 2 0 lostLookup
        (Compensation.refusedCopy 0) 0 (heldWorld .addPostMedia 2)).1) ∧
    (Held 0 (heldWorld .createPost 0) ∧
      ¬ Released (execute (Promotion.imagePosts none) 0 2 lostRejection
        (Compensation.refusedCopy 0) 0 (heldWorld .createPost 0)).1) ∧
    reconcileExisting (IdempotencyRequest.create .addPostMedia "fingerprint" (2 : CallId) 900000
      86400000) "fingerprint" 1000 = .settled .inProgress := by
  refine ⟨⟨heldWorld_held .addPostMedia 2, rfl, ?_⟩, ⟨heldWorld_held .createPost 0, ?_⟩, rfl⟩
  · have held : Held 2 (heldWorld .addPostMedia 2) := heldWorld_held .addPostMedia 2
    exact held.not_released
  · have held : Held 0 (heldWorld .createPost 0) := heldWorld_held .createPost 0
    exact held.not_released

end PostsMedia.Exits
