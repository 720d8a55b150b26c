import PostsMedia.Posts.SortOrder

namespace PostsMedia.Sharing

open Posts (PostsCall)

variable {traffic : Traffic} {s t u v : State} {event : Event} {r : RequestId} {postId : String}

/-- The committed rows of a post. -/
def postsOf (tables : Tables) (postId : String) : List Post := tables.posts.filter (·.id = postId)

/-- The post is committed and not deleted. -/
def Active (tables : Tables) (postId : String) : Prop :=
  ∀ post ∈ postsOf tables postId, post.deletedAt = none

instance (tables : Tables) (postId : String) : Decidable (Active tables postId) :=
  inferInstanceAs (Decidable (∀ post ∈ _, _))

/-- The transaction of the request has taken its lock and has not ended. -/
def Phase.holding : Phase → Bool
  | .locked | .inserting _ _ _ => true
  | _ => false

/-- The transaction has ended. -/
def Phase.ended : Phase → Bool
  | .committed | .failed => true
  | _ => false

/-- The runs whose add-media transactions find their post active when they lock it. -/
def LocksActive (traffic : Traffic) (s : State) : Event → Prop
  | .lock r => Active s.tables (PostsCall.postId (traffic.call r))
  | _ => True

instance : Decidable (LocksActive traffic s event) :=
  match event with
  | .lock _ => inferInstanceAs (Decidable (Active _ _))
  | .begin _ | .aggregate _ | .insert _ | .commit _ _ | .abort _ | .read _ | .update _ _ =>
      .isTrue trivial

/-- An add-media transaction commits its rows on an active post. -/
def ActiveCommits (traffic : Traffic) (guard : State → Event → Prop) : Prop :=
  ∀ s t r fate postId promoted, (machine traffic).Reachable guard s →
    traffic.call r = .addPostMedia postId promoted → step traffic s (.commit r fate) = some t →
    fate.tookEffect = true → Active t.tables postId

/-- The post stays as it was at the lock until the transaction ends. -/
def FrozenPosts (traffic : Traffic) : Prop :=
  ∀ s u v r postId promoted, (machine traffic).Reachable Machine.anything s →
    traffic.call r = .addPostMedia postId promoted → step traffic s (.lock r) = some u →
    (machine traffic).Path Machine.anything u v → (v.requests r).holding = true →
    postsOf v.tables postId = postsOf s.tables postId

/-- An open add-media transaction has the lock of its committed post. -/
theorem Sound.holds (sound : Sound traffic s) {promoted : List PromotedUpload}
    (call : traffic.call r = .addPostMedia postId promoted)
    (holding : (s.requests r).holding = true) :
    Exists s.tables postId ∧ s.locks postId = some r := by
  have own := sound.requests r
  simp only [RequestSound, call] at own
  cases phase : s.requests r with
  | locked =>
      rw [phase] at own
      exact own
  | inserting start created pending =>
      rw [phase] at own
      exact ⟨own.1, own.2.1⟩
  | _ => simp [phase, Phase.holding] at holding

/-- The update of one post leaves the rows of the others alone. -/
theorem postsOf_update {tables : Tables} {other : String} (different : other ≠ postId)
    (deletedAt : Option Time) :
    postsOf { tables with
      posts := tables.posts.map fun post =>
        if post.id = other then { post with deletedAt := deletedAt } else post } postId =
      postsOf tables postId := by
  simp only [postsOf]
  induction tables.posts with
  | nil => rfl
  | cons post rest ih =>
      rw [List.map_cons, List.filter_cons, List.filter_cons, ih]
      by_cases same : post.id = other
      · simp [same, different]
      · simp [same]

/-- Nobody changes a post whose lock is held. -/
theorem frozen_step (sound : Sound traffic s) (present : Exists s.tables postId)
    (held : s.locks postId = some r) (taken : step traffic s event = some t) :
    postsOf t.tables postId = postsOf s.tables postId := by
  cases event with
  | commit q fate =>
      simp only [step, stepCommit] at taken
      split at taken
      · rename_i start created started
        have owned := (sound.inserting started).1
        have kept (posts : t.tables.posts = s.tables.posts ++ PostsCall.posts (traffic.call q)) :
            postsOf t.tables postId = postsOf s.tables postId := by
          unfold postsOf
          rw [posts, List.filter_append]
          unfold Owned at owned
          cases own : traffic.call q with
          | createPost post promoted =>
              simp only [own] at owned
              have new : post.id ≠ postId := by
                rintro rfl
                exact owned present
              simp [PostsCall.posts, new]
          | addPostMedia => simp [PostsCall.posts]
        cases fate <;> cases taken
        · exact kept rfl
        · rfl
        · exact kept rfl
      · cases taken
  | update q now =>
      simp only [step, stepUpdate] at taken
      split at taken
      · split at taken <;> cases taken
        rename_i unlocked
        apply postsOf_update
        rintro rfl
        simp [held] at unlocked
      · cases taken
  | begin | lock | aggregate | insert | abort | read =>
      simp only [step, stepBegin, stepLock, stepAggregate, stepInsert, stepAbort, stepRead] at taken
      repeat' split at taken
      all_goals cases taken
      all_goals rfl

/-- The order of the program points of an upload request. -/
def Phase.rank : Phase → Nat
  | .idle => 0
  | .checked => 1
  | .locked => 2
  | .inserting _ _ _ => 3
  | .rejected _ | .committed | .failed => 4

/-- A step moves no request back, and only its lock opens the transaction of an add-media
request. -/
structure Advances (traffic : Traffic) (s t : State) (event : Event) (r : RequestId) : Prop where
  rank : (s.requests r).rank ≤ (t.requests r).rank
  opened : (t.requests r).holding = true → (s.requests r).holding = true ∨
    (event = .lock r ∧ t.tables = s.tables) ∨
      ∃ post promoted, traffic.call r = .createPost post promoted

/-- Only the moving request has to be looked at. -/
theorem Advances.move {q : RequestId} {phase : Phase}
    (changed : t.requests = Function.update s.requests q phase)
    (later : (s.requests q).rank ≤ phase.rank)
    (opened : phase.holding = true → (s.requests q).holding = true ∨
      (event = .lock q ∧ t.tables = s.tables) ∨
        ∃ post promoted, traffic.call q = .createPost post promoted) :
    Advances traffic s t event r := by
  by_cases same : r = q
  · subst same
    rw [← Function.update_self r phase s.requests, ← changed] at later opened
    exact ⟨later, opened⟩
  · have kept : t.requests r = s.requests r := by rw [changed, Function.update_of_ne same]
    exact ⟨Nat.le_of_eq (by rw [kept]), fun holding => .inl (by rw [← kept, holding])⟩

theorem advances_of_step (taken : step traffic s event = some t) :
    Advances traffic s t event r := by
  cases event with
  | begin q =>
      simp only [step, stepBegin] at taken
      split at taken
      · rename_i idle created
        cases taken
        exact .move rfl (by simp [idle, Phase.rank]) fun _ => .inr (.inr ⟨_, _, created⟩)
      · rename_i idle _
        cases taken
        refine .move rfl (by simp [idle, Phase.rank]) fun open' => ?_
        repeat' split at open'
        all_goals cases open'
      · cases taken
  | lock q =>
      simp only [step, stepLock] at taken
      split at taken
      · rename_i checked _
        split at taken <;> cases taken
        exact .move rfl (by simp [checked, Phase.rank]) fun _ => .inr (.inl ⟨rfl, rfl⟩)
      · cases taken
  | aggregate q =>
      simp only [step, stepAggregate] at taken
      split at taken
      · rename_i locked _
        cases taken
        exact .move rfl (by simp [locked, Phase.rank]) fun _ => .inl (by rw [locked]; rfl)
      · cases taken
  | insert q =>
      simp only [step, stepInsert] at taken
      split at taken
      · rename_i started
        split at taken <;> cases taken
        exact .move rfl (by simp [started, Phase.rank]) fun _ => .inl (by rw [started]; rfl)
      · cases taken
  | commit q fate =>
      simp only [step, stepCommit] at taken
      split at taken
      · rename_i started
        cases fate <;> cases taken
        all_goals exact .move rfl (by simp [started, Phase.rank]) fun holding => by cases holding
      · cases taken
  | abort q =>
      simp only [step, stepAbort] at taken
      split at taken <;> cases taken
      all_goals
        rename_i started
        exact .move rfl (by simp [started, Phase.rank]) fun holding => by cases holding
  | read | update =>
      simp only [step, stepRead, stepUpdate] at taken
      repeat' split at taken
      all_goals cases taken
      all_goals exact ⟨Nat.le_refl _, .inl⟩

/-- A transaction that is open after a step was open before, or the step was its lock. -/
theorem holding_of_step {promoted : List PromotedUpload}
    (call : traffic.call r = .addPostMedia postId promoted)
    (taken : step traffic s event = some t) (holding : (t.requests r).holding = true) :
    (s.requests r).holding = true ∨ event = .lock r ∧ t.tables = s.tables := by
  rcases (advances_of_step taken).opened holding with before | locked | ⟨post, other, created⟩
  · exact .inl before
  · exact .inr locked
  · rw [call] at created
    cases created

/-- Every open add-media transaction works on an active post. -/
def HoldsActive (traffic : Traffic) (s : State) : Prop :=
  ∀ r postId promoted, traffic.call r = .addPostMedia postId promoted →
    (s.requests r).holding = true → Active s.tables postId

theorem holdsActive_of_reachable (reached : (machine traffic).Reachable (LocksActive traffic) s) :
    HoldsActive traffic s := by
  apply reached.strengthen (Sound traffic) (fun _ => sound_of_reachable)
  · intro start initial r postId promoted _ holding
    obtain ⟨_, _, idle, _⟩ := initial
    rw [idle r] at holding
    cases holding
  · intro s event t sound _ admitted taken active r postId promoted call holding
    rcases holding_of_step call taken holding with before | ⟨rfl, tables⟩
    · obtain ⟨present, held⟩ := sound.holds call before
      unfold Active
      rw [frozen_step sound present held taken]
      exact active r postId promoted call before
    · rw [tables]
      have found : Active s.tables (PostsCall.postId (traffic.call r)) := admitted
      rw [call] at found
      exact found

theorem activeCommits_of_locksActive (traffic : Traffic) :
    ActiveCommits traffic (LocksActive traffic) := by
  intro s t r fate postId promoted reached call taken effective
  have sound := sound_of_reachable reached
  have holding : (s.requests r).holding = true := by
    simp only [step, stepCommit] at taken
    split at taken
    · rename_i started
      rw [started]
      rfl
    · cases taken
  obtain ⟨present, held⟩ := sound.holds call holding
  unfold Active
  rw [frozen_step sound present held taken]
  exact holdsActive_of_reachable reached r postId promoted call holding

/-- A transaction takes its lock only once. -/
theorem rank_of_lock (taken : step traffic s (.lock r) = some t) :
    (s.requests r).rank = 1 ∧ (t.requests r).rank = 2 ∧ t.tables = s.tables := by
  simp only [step, stepLock] at taken
  split at taken
  · rename_i checked _
    split at taken <;> cases taken
    simp [checked, State.goto, Phase.rank]
  · cases taken

/-- The state of a request that has taken its lock, and of its post while it stays open. -/
def KeptSince (traffic : Traffic) (tables : Tables) (r : RequestId) (postId : String)
    (v : State) : Prop :=
  (machine traffic).Reachable Machine.anything v ∧ 2 ≤ (v.requests r).rank ∧
    ((v.requests r).holding = true → postsOf v.tables postId = postsOf tables postId)

theorem keptSince_step {tables : Tables} {promoted : List PromotedUpload}
    (call : traffic.call r = .addPostMedia postId promoted)
    (taken : step traffic s event = some t) (kept : KeptSince traffic tables r postId s) :
    KeptSince traffic tables r postId t := by
  obtain ⟨reached, passed, same⟩ := kept
  have later : (s.requests r).rank ≤ (t.requests r).rank := (advances_of_step taken).rank
  refine ⟨reached.extend (.single event trivial taken), by omega, ?_⟩
  intro holding
  rcases holding_of_step call taken holding with before | ⟨rfl, _⟩
  · obtain ⟨present, held⟩ := (sound_of_reachable reached).holds call before
    rw [frozen_step (sound_of_reachable reached) present held taken]
    exact same before
  · have first : (s.requests r).rank = 1 := (rank_of_lock taken).1
    omega

theorem frozenPosts (traffic : Traffic) : FrozenPosts traffic := by
  intro s u v r postId promoted reached call locked path
  obtain ⟨_, atLock, tables⟩ := rank_of_lock locked
  have start : KeptSince traffic s.tables r postId u := by
    refine ⟨reached.extend (.single (.lock r) trivial locked), by omega, ?_⟩
    intro _
    rw [tables]
  have along : KeptSince traffic s.tables r postId v :=
    path.invariant (fun _ _ _ _ taken => keptSince_step call taken) start
  exact along.2.2

/-- Add-media commits on an active post in every run whose locks find it active, and nobody changes
the post between the lock and the commit. -/
theorem addPostMedia_active (traffic : Traffic) :
    ActiveCommits traffic (LocksActive traffic) ∧ FrozenPosts traffic :=
  ⟨activeCommits_of_locksActive traffic, frozenPosts traffic⟩

/-- The post is deleted and restored between the check and the lock of the second client. -/
theorem restoredPost_active : ∃ s t, (machine sharedPost).Reachable (LocksActive sharedPost) s ∧
    step sharedPost s (.commit 1 .ok) = some t ∧
    t.tables.media.map (·.id) = ["media-0", "media-1", "media-2"] ∧ Active t.tables "post-0" := by
  obtain ⟨s, reached, observed⟩ := (machine sharedPost).reachable_of_observed
    (LocksActive sharedPost)
    (fun s => (step sharedPost s (.commit 1 .ok)).map fun t => t.tables.media.map (·.id))
    (some ["media-0", "media-1", "media-2"])
    (toBoth ++ [.read 0, .update 0 5, .read 1, .update 1 6, .lock 1, .aggregate 1, .insert 1,
      .insert 1]) (emptyStart_initial _) (by decide)
  obtain ⟨t, taken, media⟩ := Option.map_eq_some_iff.mp observed
  have active := (addPostMedia_active sharedPost).1 s t 1 .ok "post-0" _ reached rfl taken rfl
  exact ⟨s, t, reached, taken, media, active⟩

/-- The post is deleted between the check and the lock of the second client, whose commit then adds
media to it. -/
theorem deletedPost_extended : ¬ ActiveCommits sharedPost Machine.anything := by
  intro commits
  obtain ⟨s, reached, observed⟩ := (machine sharedPost).reachable_of_observed Machine.anything
    (fun s => (step sharedPost s (.commit 1 .ok)).map fun t => decide (Active t.tables "post-0"))
    (some false)
    (toBoth ++ [.read 0, .update 0 5, .lock 1, .aggregate 1, .insert 1, .insert 1])
    (emptyStart_initial _) (by decide)
  obtain ⟨t, taken, deleted⟩ := Option.map_eq_some_iff.mp observed
  have active := commits s t 1 .ok "post-0" _ reached rfl taken rfl
  simp [active] at deleted

end PostsMedia.Sharing
