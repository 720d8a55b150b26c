import Mathlib.Logic.Function.Basic
import PostsMedia.Library.Machine
import PostsMedia.Posts.Transactions

namespace PostsMedia

structure UpdatePostInput where
  title : Option String := none
  content : Option String := none

namespace PostsRepository

/-- `prisma.post.update` writes the row with this id and its `updatedAt`, whatever the row holds. -/
def update (input : UpdatePostInput) (now : Time) (post : Post) : Post :=
  { post with
    title := input.title.getD post.title
    content := input.content.getD post.content
    updatedAt := now }

def softDelete (now : Time) (post : Post) : Post :=
  { post with deletedAt := some now, updatedAt := now }

def restore (now : Time) (post : Post) : Post := { post with deletedAt := none, updatedAt := now }

end PostsRepository

namespace PostsService

def postNotFound : DomainError where
  code := "POST_NOT_FOUND"
  message := "The requested post does not exist."
  httpStatus := 404

def postSoftDeleted : DomainError where
  code := "POST_SOFT_DELETED"
  message := "The requested post has been deleted."
  httpStatus := 409

abbrev CallId := Nat

/-- One call of the service on the post. -/
inductive Call
  | update (command : UpdatePostInput)
  | softDelete
  | restore

/-- The program point of one call. -/
inductive Phase
  | idle
  | writing
  | returned (post : Post)
  | threw (error : DomainError)
  | failed

/-- The committed row of the post and its calls. -/
structure State where
  post : Option Post
  calls : CallId → Phase

/-- The read of a call, its write, or the end of a call whose statement failed. -/
inductive Event
  | read (q : CallId)
  | write (q : CallId) (now : Time) (fate : Fate)
  | abort (q : CallId)

/-- What a call does after `findByIdIncludingDeleted`. -/
def afterRead : Call → Option Post → Phase
  | _, none => .threw postNotFound
  | .update _, some post => if post.deletedAt.isSome then .threw postSoftDeleted else .writing
  | .softDelete, some post => if post.deletedAt.isSome then .returned post else .writing
  | .restore, some post => if post.deletedAt.isNone then .returned post else .writing

/-- The statement of a call, without a guard on `deletedAt`. -/
def Call.statement (now : Time) : Call → Post → Post
  | .update command => PostsRepository.update command now
  | .softDelete => PostsRepository.softDelete now
  | .restore => PostsRepository.restore now

section Steps

variable (call : CallId → Call) (s : State)

def State.goto (q : CallId) (phase : Phase) : State :=
  { s with calls := Function.update s.calls q phase }

def stepRead (q : CallId) : Option State :=
  match s.calls q with
  | .idle => some (s.goto q (afterRead (call q) s.post))
  | _ => none

/-- A write that finds no row is reported as a missing post. -/
def stepWrite (q : CallId) (now : Time) (fate : Fate) : Option State :=
  match s.calls q, s.post with
  | .writing, none => some (s.goto q (.threw postNotFound))
  | .writing, some post =>
      let written := (call q).statement now post
      some (match fate with
        | .ok => { s.goto q (.returned written) with post := some written }
        | .unacknowledged => { s.goto q .failed with post := some written }
        | .refused => s.goto q .failed)
  | _, _ => none

def stepAbort (q : CallId) : Option State :=
  match s.calls q with
  | .idle | .writing => some (s.goto q .failed)
  | _ => none

/-- One event of the calls. -/
def step : Event → Option State
  | .read q => stepRead call s q
  | .write q now fate => stepWrite call s q now fate
  | .abort q => stepAbort s q

end Steps

/-- All calls start on an arbitrary row. -/
def machine (call : CallId → Call) : Machine State Event where
  initial s := ∀ q, s.calls q = .idle
  step := step call

variable {call : CallId → Call} {s t u : State} {event : Event} {q r : CallId}

/-- The call writes a title or a content. -/
def Call.writesText : Call → Bool
  | .update command => command.title.isSome || command.content.isSome
  | _ => false

def Call.isRestore : Call → Bool
  | .restore => true
  | _ => false

/-- The call goes on only on an active post, and its write breaks the law on a deleted one. -/
def Call.needsActive : Call → Bool
  | .softDelete => true
  | call => call.writesText

def deletedAt (s : State) : Option Time := s.post.bind (·.deletedAt)

/-- What one step may do to a soft-deleted post. -/
structure Frozen (call : CallId → Call) (s : State) (event : Event) (t : State) : Prop where
  text : ∀ q now fate, event = .write q now fate → fate.tookEffect = true →
    (call q).writesText = true → deletedAt s = none
  kept : ∀ time, deletedAt s = some time → deletedAt t = some time ∨
    ∃ q now fate, event = .write q now fate ∧ fate.tookEffect = true ∧ (call q).isRestore = true

/-- A deletion lands while no other call is between its read and its write of text or of a
deletion. -/
def DeletesAlone (call : CallId → Call) (s : State) : Event → Prop
  | .write q _ fate => (call q = .softDelete ∧ fate.tookEffect = true) →
      ∀ r, r ≠ q → s.calls r = .writing → (call r).needsActive = false
  | _ => True

@[simp] theorem goto_post (q : CallId) (phase : Phase) : (s.goto q phase).post = s.post := rfl

@[simp] theorem goto_self (q : CallId) (phase : Phase) : (s.goto q phase).calls q = phase := by
  simp [State.goto]

theorem goto_of_ne (other : r ≠ q) (phase : Phase) : (s.goto q phase).calls r = s.calls r := by
  simp [State.goto, other]

@[simp] theorem goto_deletedAt (q : CallId) (phase : Phase) :
    deletedAt (s.goto q phase) = deletedAt s := rfl

/-- The changes that one step can make. -/
inductive Effect (call : CallId → Call) (s t : State) : Event → Prop
  | read (q : CallId) : t = s.goto q (afterRead (call q) s.post) → Effect call s t (.read q)
  | write (q : CallId) (now : Time) (fate : Fate) (post : Post) (phase : Phase) :
      fate.tookEffect = true → s.post = some post → phase ≠ .writing →
      t = { s.goto q phase with post := some ((call q).statement now post) } →
      Effect call s t (.write q now fate)
  | ended (event : Event) (q : CallId) (phase : Phase) :
      (∀ q now fate, event = .write q now fate → fate.tookEffect = true → s.post = none) →
      phase ≠ .writing → t = s.goto q phase → Effect call s t event

theorem effect_of_step (taken : step call s event = some t) : Effect call s t event := by
  cases event with
  | read q =>
      simp only [step, stepRead] at taken
      split at taken <;> cases taken
      exact .read q rfl
  | write q now fate =>
      simp only [step, stepWrite] at taken
      split at taken
      · rename_i absent
        cases taken
        exact .ended _ q _ (fun _ _ _ _ _ => absent) (by simp) rfl
      · rename_i post _ present
        cases fate <;> cases taken
        · exact .write q now _ post _ rfl present (by simp) rfl
        · exact .ended _ q _ (by rintro _ _ _ ⟨⟩ ⟨⟩) (by simp) rfl
        · exact .write q now _ post _ rfl present (by simp) rfl
      · cases taken
  | abort q =>
      simp only [step, stepAbort] at taken
      split at taken <;> cases taken
      all_goals exact .ended _ q _ (by rintro _ _ _ ⟨⟩) (by simp) rfl

/-- A write needs a call between its read and its write. -/
theorem writing_of_write {now : Time} {fate : Fate}
    (taken : step call s (.write q now fate) = some t) : s.calls q = .writing := by
  simp only [step, stepWrite] at taken
  split at taken
  · assumption
  · assumption
  · cases taken

/-- A call goes on to its write only on a row, and to a write of text or of a deletion only on an
active one. -/
theorem active_of_afterRead {call : Call} {post : Option Post}
    (writing : afterRead call post = .writing) :
    post.isSome = true ∧ (call.needsActive = true → post.bind (·.deletedAt) = none) := by
  unfold afterRead at writing
  split at writing
  · cases writing
  · split at writing <;> simp_all
  · split at writing <;> simp_all
  · simp [Call.needsActive, Call.writesText]

/-- Only a deletion makes an active post deleted. -/
theorem statement_active {call : Call} {post : Post} (now : Time) (kind : call ≠ .softDelete)
    (active : post.deletedAt = none) : (call.statement now post).deletedAt = none := by
  cases call with
  | update => exact active
  | softDelete => exact absurd rfl kind
  | restore => rfl

/-- Every call before its write of text or of a deletion still finds an active post. -/
structure Sound (call : CallId → Call) (s : State) : Prop where
  present : ∀ q, s.calls q = .writing → s.post.isSome = true
  active : ∀ q, s.calls q = .writing → (call q).needsActive = true → deletedAt s = none

/-- A call between its read and its write has found a row, and no row disappears. -/
theorem present_step (present : ∀ q, s.calls q = .writing → s.post.isSome = true)
    (taken : step call s event = some t) : ∀ q, t.calls q = .writing → t.post.isSome = true := by
  intro r
  cases effect_of_step taken with
  | read q changed =>
      subst changed
      by_cases same : r = q
      · subst same
        intro writing
        rw [goto_self] at writing
        exact (active_of_afterRead writing).1
      · simpa [goto_of_ne same] using present r
  | write q now fate post phase _ _ _ changed =>
      subst changed
      simp
  | ended _ q phase _ other changed =>
      subst changed
      by_cases same : r = q
      · subst same
        simp [other]
      · simpa [goto_of_ne same] using present r

/-- The step keeps the post active for the calls that need it, unless a deletion interferes. -/
theorem active_step (sound : Sound call s) (alone : DeletesAlone call s event)
    (taken : step call s event = some t) :
    ∀ r, t.calls r = .writing → (call r).needsActive = true → deletedAt t = none := by
  intro r
  cases effect_of_step taken with
  | read q changed =>
      subst changed
      by_cases same : r = q
      · subst same
        intro writing
        rw [goto_self] at writing
        exact (active_of_afterRead writing).2
      · simpa [goto_of_ne same] using sound.active r
  | write q now fate post phase effective present other changed =>
      subst changed
      by_cases same : r = q
      · subst same
        simp [other]
      intro writing needs
      have before : s.calls r = .writing := by simpa [goto_of_ne same] using writing
      have active : post.deletedAt = none := by
        simpa [deletedAt, present] using sound.active r before needs
      by_cases deletes : call q = .softDelete
      · have harmless : (call r).needsActive = false := alone ⟨deletes, effective⟩ r same before
        rw [harmless] at needs
        cases needs
      · exact statement_active now deletes active
  | ended _ q phase _ other changed =>
      subst changed
      by_cases same : r = q
      · subst same
        simp [other]
      · simpa [goto_of_ne same] using sound.active r

theorem sound_of_reachable (reached : (machine call).Reachable (DeletesAlone call) s) :
    Sound call s := by
  apply reached.invariant
  · intro s idle
    exact ⟨fun q writing => by simp [idle q] at writing,
      fun q writing => by simp [idle q] at writing⟩
  · intro s event t alone taken sound
    exact ⟨present_step sound.present taken, active_step sound alone taken⟩

/-- A write by a call that is no deletion keeps the deletion time, or it restores the post. -/
theorem statement_deletedAt {call : Call} {post : Post} (now : Time) (kind : call ≠ .softDelete) :
    (call.statement now post).deletedAt = post.deletedAt ∨ call.isRestore = true := by
  cases call with
  | update => exact .inl rfl
  | softDelete => exact absurd rfl kind
  | restore => exact .inr rfl

/-- The calls leave a deleted post as it is while every pending write finds what it has read. -/
theorem frozen_of_sound (sound : Sound call s) (taken : step call s event = some t) :
    Frozen call s event t := by
  constructor
  · rintro q now fate rfl _ text
    apply sound.active q (writing_of_write taken)
    cases kind : call q <;> simp_all [Call.writesText, Call.needsActive]
  · intro time deleted
    cases effect_of_step taken with
    | read q changed =>
        subst changed
        exact .inl deleted
    | write q now fate post phase effective present other changed =>
        have writing := writing_of_write taken
        subst changed
        have before : post.deletedAt = some time := by simpa [deletedAt, present] using deleted
        have kind : call q ≠ .softDelete := by
          intro deletes
          have active := sound.active q writing (by simp [deletes, Call.needsActive])
          rw [active] at deleted
          cases deleted
        rcases statement_deletedAt now kind with same | restores
        · exact .inl (same.trans before)
        · exact .inr ⟨q, now, fate, rfl, effective, restores⟩
    | ended _ q phase _ other changed =>
        subst changed
        exact .inl deleted

/-- The write of a call that another deletion has overtaken breaks the law. -/
theorem overtaken_breaks {post : Post} {time : Time} (present : s.post = some post)
    (deleted : post.deletedAt = some time) (writing : s.calls r = .writing)
    (needs : (call r).needsActive = true) :
    ∃ event t, step call s event = some t ∧ ¬ Frozen call s event t := by
  have taken : step call s (.write r (time + 1) .ok) = some
      { s.goto r (.returned ((call r).statement (time + 1) post)) with
        post := some ((call r).statement (time + 1) post) } := by
    simp only [step, stepWrite, writing, present]
  refine ⟨_, _, taken, ?_⟩
  intro frozen
  cases kind : call r with
  | update command =>
      have active := frozen.text r _ _ rfl rfl (by simpa [kind, Call.needsActive] using needs)
      simp [deletedAt, present, deleted] at active
  | softDelete =>
      rcases frozen.kept time (by simp [deletedAt, present, deleted]) with same | restored
      · simp [deletedAt, kind, Call.statement, PostsRepository.softDelete] at same
      · obtain ⟨q, now, fate, asked, _, restores⟩ := restored
        cases asked
        simp [kind, Call.isRestore] at restores
  | restore => simp [kind, Call.needsActive, Call.writesText] at needs

/-- The write of a call still finds a row in every run. -/
theorem present_of_reachable (reached : (machine call).Reachable Machine.anything s) :
    ∀ q, s.calls q = .writing → s.post.isSome = true := by
  apply reached.invariant
  · intro s idle q writing
    simp [idle q] at writing
  · intro s event t _ taken present
    exact present_step present taken

/-- Soft-deleted posts stay as they are in every run whose deletions land alone, and every other
deletion lets the next write break the law. -/
theorem deletedPosts_frozen (call : CallId → Call) :
    (∀ s event t, (machine call).Reachable (DeletesAlone call) s → DeletesAlone call s event →
      step call s event = some t → Frozen call s event t) ∧
    (∀ s event t, (machine call).Reachable Machine.anything s → ¬ DeletesAlone call s event →
      step call s event = some t → ∃ next u, step call t next = some u ∧
        ¬ Frozen call t next u) := by
  constructor
  · intro s event t reached _ taken
    exact frozen_of_sound (sound_of_reachable reached) taken
  · intro s event t reached interferes taken
    -- Only the write of a deletion can be without the condition.
    obtain ⟨q, now, fate, rfl, ⟨deletes, effective⟩, r, other, writing, needs⟩ :
        ∃ q now fate, event = .write q now fate ∧
          (call q = .softDelete ∧ fate.tookEffect = true) ∧
          ∃ r, r ≠ q ∧ s.calls r = .writing ∧ (call r).needsActive = true := by
      cases event with
      | write q now fate =>
          simp only [DeletesAlone, Classical.not_imp, not_forall, Bool.not_eq_false] at interferes
          obtain ⟨deletion, r, other, writing, needs⟩ := interferes
          exact ⟨q, now, fate, rfl, deletion, r, other, writing, needs⟩
      | read | abort => exact absurd trivial interferes
    cases effect_of_step taken with
    | write _ _ _ post phase _ _ _ changed =>
        subst changed
        exact overtaken_breaks (s := { s.goto q phase with post := _ }) rfl
          (by rw [deletes]; rfl) ((goto_of_ne other phase).trans writing) needs
    | ended _ _ phase missing _ _ =>
        have found := present_of_reachable reached q (writing_of_write taken)
        simp [missing q now fate rfl effective] at found

/-- The first client renames the post and the second one deletes it. -/
def twoClients (q : CallId) : Call :=
  if q = 0 then .update { title := some "Renamed" } else .softDelete

def activePost : Post where
  id := "post-0"
  title := "Title"
  content := ""
  createdAt := 0
  updatedAt := 0

def activeStart : State := ⟨some activePost, fun _ => .idle⟩

theorem activeStart_initial : (machine twoClients).initial activeStart := fun _ => rfl

/-- The second client deletes the post alone, and the first one then finds it deleted. -/
theorem deletedFirst_frozen : ∃ s t, (machine twoClients).Reachable (DeletesAlone twoClients) s ∧
    step twoClients s (.read 0) = some t ∧ deletedAt s = some 5 ∧
    Frozen twoClients s (.read 0) t := by
  have alone : DeletesAlone twoClients (activeStart.goto 1 .writing) (.write 1 5 .ok) := by
    intro _ r other writing
    rw [goto_of_ne other] at writing
    cases writing
  have reached := (((Machine.Path.refl activeStart).snoc (.read 1) trivial rfl).snoc
    (.write 1 5 .ok) alone rfl : (machine twoClients).Path (DeletesAlone twoClients) _ _)
  have start := Machine.Reachable.extend ⟨_, activeStart_initial, .refl _⟩ reached
  exact ⟨_, _, start, rfl, rfl,
    (deletedPosts_frozen twoClients).1 _ (.read 0) _ start trivial rfl⟩

/-- The first client reads the active post, the second one deletes it, and the title is then
written all the same. -/
theorem deletedPost_renamed : ¬ ∀ call s event t, (machine call).Reachable Machine.anything s →
    step call s event = some t → Frozen call s event t := by
  intro frozen
  obtain ⟨s, reached, observed⟩ := (machine twoClients).reachable_of_observed Machine.anything
    (fun s => (deletedAt s, (step twoClients s (.write 0 6 .ok)).isSome)) (some 5, true)
    [.read 0, .read 1, .write 1 5 .ok] activeStart_initial (by decide)
  simp only [Prod.mk.injEq] at observed
  obtain ⟨t, taken⟩ := Option.isSome_iff_exists.mp observed.2
  have active := (frozen twoClients s _ t reached taken).text 0 6 .ok rfl rfl rfl
  rw [active] at observed
  cases observed.1

end PostsService

end PostsMedia
