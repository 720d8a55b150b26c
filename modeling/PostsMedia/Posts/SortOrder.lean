import PostsMedia.Posts.Sharing

namespace PostsMedia.Sharing

open Posts (PostsCall)

/-- The committed media of a post, in commit order. -/
def mediaOf (tables : Tables) (postId : String) : List Media :=
  tables.media.filter (·.postId = postId)

/-- A post with this id is committed. -/
def Exists (tables : Tables) (postId : String) : Prop := ∃ post ∈ tables.posts, post.id = postId

section Numbers

variable {tables : Tables} {postId : String}

/-- The greatest of the first numbers is the last one. -/
theorem max?_range (count : Nat) :
    (List.range count).max? = if count = 0 then none else some (count - 1) := by
  cases count with
  | zero => rfl
  | succ last =>
      rw [if_neg (Nat.succ_ne_zero last), List.max?_eq_some_iff]
      refine ⟨List.mem_range.mpr (by omega), fun number member => ?_⟩
      have below := List.mem_range.mp member
      omega

/-- The next sort order of a numbered post is its number of media. -/
theorem nextSortOrder_of_numbered
    (numbered : (mediaOf tables postId).map (·.sortOrder) =
      List.range (mediaOf tables postId).length) :
    tables.nextSortOrder postId = (mediaOf tables postId).length := by
  have greatest : tables.maxSortOrder postId =
      if (mediaOf tables postId).length = 0 then none
      else some ((mediaOf tables postId).length - 1) := by
    rw [← max?_range, ← numbered]
    rfl
  unfold Tables.nextSortOrder
  rw [greatest]
  by_cases empty : (mediaOf tables postId).length = 0
  · simp [empty]
  · rw [if_neg empty]
    show (mediaOf tables postId).length - 1 + 1 = (mediaOf tables postId).length
    omega

/-- The rows of a request take consecutive numbers from its first one on. -/
theorem created_sortOrders (postId : String) (start : Nat) (promoted : List PromotedUpload) :
    ((createAllWithDispatch postId start promoted).map Prod.fst).map (·.sortOrder) =
      List.range' start promoted.length := by
  have positions : promoted.zipIdx.map Prod.snd = List.range' 0 promoted.length :=
    List.zipIdx_map_snd 0 promoted
  have shifted : (promoted.zipIdx.map Prod.snd).map (start + ·) =
      List.range' start promoted.length := by
    rw [positions, List.map_add_range', Nat.add_zero]
  rw [← shifted, createAllWithDispatch, List.map_map, List.map_map, List.map_map]
  rfl

/-- All rows of a request belong to its post. -/
theorem created_postId {start : Nat} {promoted : List PromotedUpload} {media : Media}
    (member : media ∈ (createAllWithDispatch postId start promoted).map Prod.fst) :
    media.postId = postId := by
  obtain ⟨created, inside, rfl⟩ := List.mem_map.mp member
  obtain ⟨_, _, rfl⟩ := List.mem_map.mp inside
  rfl

/-- The loop of the inserts adds the row of the next upload. -/
theorem createAllWithDispatch_concat (postId : String) (start : Nat)
    (promoted : List PromotedUpload) (upload : PromotedUpload) :
    createAllWithDispatch postId start (promoted ++ [upload]) =
      createAllWithDispatch postId start promoted ++
        [createWithDispatch (upload.input postId (start + promoted.length))] := by
  simp [createAllWithDispatch, List.zipIdx_append]

/-- The inserts of a request add its rows to the media of its post. -/
theorem mediaOf_insert (posts : List Post) (start : Nat) (promoted : List PromotedUpload)
    (other : String) :
    mediaOf (tables.insert posts (createAllWithDispatch postId start promoted)) other =
      if other = postId then
        mediaOf tables other ++ (createAllWithDispatch postId start promoted).map Prod.fst
      else mediaOf tables other := by
  simp only [mediaOf, Tables.insert, List.filter_append]
  split
  · rename_i same
    subst same
    congr 1
    rw [List.filter_eq_self]
    exact fun media member => by simpa using created_postId member
  · rename_i different
    have none : ((createAllWithDispatch postId start promoted).map Prod.fst).filter
        (·.postId = other) = [] := by
      rw [List.filter_eq_nil_iff]
      intro media member
      have owner := created_postId member
      simpa [owner] using Ne.symm different
    rw [none, List.append_nil]

end Numbers

/-- What a request relies on while its transaction is open. -/
def RequestSound (traffic : Traffic) (s : State) (r : RequestId) (phase : Phase) : Prop :=
  match traffic.call r with
  | .createPost post promoted =>
      match phase with
      | .idle => ¬ Exists s.tables post.id
      | .checked | .locked => False
      | .inserting start created pending => ¬ Exists s.tables post.id ∧ start = 0 ∧
          ∃ done, promoted = done ++ pending ∧
            created = createAllWithDispatch post.id start done
      | _ => True
  | .addPostMedia postId promoted =>
      match phase with
      | .checked => Exists s.tables postId
      | .locked => Exists s.tables postId ∧ s.locks postId = some r
      | .inserting start created pending => Exists s.tables postId ∧ s.locks postId = some r ∧
          start = (mediaOf s.tables postId).length ∧
          ∃ done, promoted = done ++ pending ∧
            created = createAllWithDispatch postId start done
      | _ => True

/-- The committed tables are numbered, and every request knows its place. -/
structure Sound (traffic : Traffic) (s : State) : Prop where
  numbered : ∀ postId, (mediaOf s.tables postId).map (·.sortOrder) =
    List.range (mediaOf s.tables postId).length
  posted : ∀ media ∈ s.tables.media, Exists s.tables media.postId
  requests : ∀ r, RequestSound traffic s r (s.requests r)

/-- The recorded requests tell how the committed media came about. -/
structure Recorded (traffic : Traffic) (s : State) : Prop where
  media : s.tables.media = s.commits.flatMap (·.rows)
  batches : ∀ batch ∈ s.commits,
    batch.postId = PostsCall.postId (traffic.call batch.request) ∧
      batch.rows = (createAllWithDispatch batch.postId batch.start
        (PostsCall.promoted (traffic.call batch.request))).map Prod.fst
  bounded : ∀ batch ∈ s.commits,
    batch.start + batch.rows.length ≤ (mediaOf s.tables batch.postId).length
  ordered : s.commits.Pairwise fun earlier later => earlier.postId = later.postId →
    earlier.start + earlier.rows.length ≤ later.start

section Requests

variable {traffic : Traffic} {s t : State} {r : RequestId} {phase : Phase}

/-- What a request relies on is still there. -/
structure Keeps (traffic : Traffic) (s t : State) (r : RequestId) : Prop where
  posts : ∀ postId, Exists s.tables postId → Exists t.tables postId
  unborn : ∀ post promoted, traffic.call r = .createPost post promoted →
    ¬ Exists s.tables post.id → ¬ Exists t.tables post.id
  locks : ∀ postId, s.locks postId = some r → t.locks postId = some r
  media : ∀ postId, Exists s.tables postId → s.locks postId = some r →
    mediaOf t.tables postId = mediaOf s.tables postId

theorem RequestSound.later (sound : RequestSound traffic s r phase) (keeps : Keeps traffic s t r) :
    RequestSound traffic t r phase := by
  unfold RequestSound at sound ⊢
  split at sound
  · rename_i post promoted call
    cases phase with
    | idle => exact keeps.unborn post promoted call sound
    | inserting start created pending =>
        exact ⟨keeps.unborn post promoted call sound.1, sound.2⟩
    | _ => exact sound
  · rename_i postId promoted call
    cases phase with
    | checked => exact keeps.posts postId sound
    | locked => exact ⟨keeps.posts postId sound.1, keeps.locks postId sound.2⟩
    | inserting start created pending =>
        obtain ⟨present, held, first, rows⟩ := sound
        refine ⟨keeps.posts postId present, keeps.locks postId held, ?_, rows⟩
        rw [keeps.media postId present held]
        exact first
    | _ => exact sound

/-- The same committed rows and locks keep everything. -/
theorem keeps_of_same (posts : t.tables.posts = s.tables.posts)
    (media : t.tables.media = s.tables.media)
    (locks : ∀ postId, s.locks postId = some r → t.locks postId = some r) :
    Keeps traffic s t r where
  posts postId present := by
    unfold Exists at present ⊢
    rw [posts]
    exact present
  unborn post promoted _ absent := by
    unfold Exists at absent ⊢
    rw [posts]
    exact absent
  locks := locks
  media postId _ _ := by
    unfold mediaOf
    rw [media]

/-- A request moves on while the others keep what they rely on. -/
theorem Sound.move (sound : Sound traffic s) (r : RequestId)
    (numbered : ∀ postId, (mediaOf t.tables postId).map (·.sortOrder) =
      List.range (mediaOf t.tables postId).length)
    (posted : ∀ media ∈ t.tables.media, Exists t.tables media.postId)
    (keeps : ∀ q, q ≠ r → Keeps traffic s t q) (others : ∀ q, q ≠ r → t.requests q = s.requests q)
    (own : RequestSound traffic t r (t.requests r)) : Sound traffic t where
  numbered := numbered
  posted := posted
  requests q := by
    by_cases same : q = r
    · exact same ▸ own
    · rw [others q same]
      exact (sound.requests q).later (keeps q same)

/-- A request that goes on without a write. -/
theorem Sound.goto (sound : Sound traffic s) (own : RequestSound traffic s r phase) :
    Sound traffic (s.goto r phase) := by
  refine sound.move r sound.numbered sound.posted
    (fun q _ => keeps_of_same rfl rfl fun _ held => held) ?_ ?_
  · intro q different
    exact Function.update_of_ne different ..
  · have kept : RequestSound traffic (s.goto r phase) r phase :=
      own.later (keeps_of_same rfl rfl fun _ held => held)
    simpa [State.goto] using kept

/-- An ended request relies on nothing. -/
theorem requestSound_ended (ended : phase = .failed ∨ phase = .committed) :
    RequestSound traffic s r phase := by
  unfold RequestSound
  rcases ended with rfl | rfl
  · split <;> trivial
  · split <;> trivial

/-- The end of a transaction leaves the locks of the others alone. -/
theorem finish_locks {q : RequestId} (different : q ≠ r) {postId : String}
    (held : s.locks postId = some q) : (s.finish r phase).locks postId = some q := by
  simp [State.finish, held, different]

theorem Sound.finish (sound : Sound traffic s) (ended : phase = .failed ∨ phase = .committed) :
    Sound traffic (s.finish r phase) := by
  refine sound.move r sound.numbered sound.posted
    (fun q different => keeps_of_same rfl rfl fun _ held => finish_locks different held) ?_ ?_
  · intro q different
    exact Function.update_of_ne different ..
  · have own : RequestSound traffic (s.finish r phase) r phase := requestSound_ended ended
    simpa [State.finish, State.goto] using own

/-- A post that is not committed has no media. -/
theorem Sound.mediaOf_unborn (sound : Sound traffic s) {postId : String}
    (unborn : ¬ Exists s.tables postId) : mediaOf s.tables postId = [] := by
  unfold mediaOf
  rw [List.filter_eq_nil_iff]
  intro media member
  have present := sound.posted media member
  simp only [decide_eq_true_eq]
  rintro rfl
  exact unborn present

/-- The post of an open transaction is new, or the transaction holds its lock. -/
def Owned (traffic : Traffic) (s : State) (r : RequestId) : Prop :=
  match traffic.call r with
  | .createPost post _ => ¬ Exists s.tables post.id
  | .addPostMedia postId _ => Exists s.tables postId ∧ s.locks postId = some r

/-- An open transaction has inserted its first uploads behind the committed media of its post. -/
theorem Sound.inserting (sound : Sound traffic s) {start : Nat}
    {created : List (Media × ProcessingDispatch)} {pending : List PromotedUpload}
    (started : s.requests r = .inserting start created pending) :
    Owned traffic s r ∧
      start = (mediaOf s.tables (PostsCall.postId (traffic.call r))).length ∧
      ∃ done, PostsCall.promoted (traffic.call r) = done ++ pending ∧
        created = createAllWithDispatch (PostsCall.postId (traffic.call r)) start done := by
  have own := sound.requests r
  rw [started] at own
  unfold RequestSound at own
  unfold Owned
  cases call : traffic.call r with
  | createPost post promoted =>
      simp only [call] at own
      obtain ⟨unborn, rfl, rows⟩ := own
      refine ⟨unborn, ?_, rows⟩
      show 0 = (mediaOf s.tables post.id).length
      rw [sound.mediaOf_unborn unborn]
      rfl
  | addPostMedia postId promoted =>
      simp only [call] at own
      obtain ⟨present, held, first, rows⟩ := own
      exact ⟨⟨present, held⟩, first, rows⟩

/-- A commit leaves what another open transaction relies on. -/
theorem Owned.keeps (owned : Owned traffic s r) {q : RequestId} (different : q ≠ r) {start : Nat}
    {done : List PromotedUpload} :
    Keeps traffic s ((s.apply r (traffic.call r) start
      (createAllWithDispatch (PostsCall.postId (traffic.call r)) start done)).finish r phase)
      q where
  posts postId := by
    rintro ⟨post, member, same⟩
    exact ⟨post, List.mem_append_left _ member, same⟩
  unborn post promoted call absent := by
    rintro ⟨other, member, same⟩
    rcases List.mem_append.mp member with old | new
    · exact absent ⟨other, old, same⟩
    · cases own : traffic.call r with
      | createPost post' promoted' =>
          rw [own] at new
          obtain rfl := List.mem_singleton.mp new
          exact different
            (traffic.postId_fresh q r post other promoted promoted' call own same.symm)
      | addPostMedia postId promoted' =>
          rw [own] at new
          cases new
  locks postId held := finish_locks different held
  media postId present held := by
    have foreign : postId ≠ PostsCall.postId (traffic.call r) := by
      rintro rfl
      unfold Owned at owned
      cases own : traffic.call r with
      | createPost post promoted =>
          simp only [own] at owned
          rw [own] at present
          exact owned present
      | addPostMedia postId promoted =>
          simp only [own] at owned
          rw [own] at held
          exact different (Option.some.inj (held.symm.trans owned.2))
    exact (mediaOf_insert ..).trans (if_neg foreign)

/-- The commit of an open transaction keeps the posts numbered. -/
theorem Sound.apply (sound : Sound traffic s) {start : Nat}
    {created : List (Media × ProcessingDispatch)}
    (started : s.requests r = .inserting start created [])
    (ended : phase = .failed ∨ phase = .committed) :
    Sound traffic ((s.apply r (traffic.call r) start created).finish r phase) := by
  obtain ⟨owned, first, done, _, rfl⟩ := sound.inserting started
  refine sound.move r (fun postId => ?_) (fun media member => ?_)
    (fun q different => owned.keeps different) ?_ ?_
  · show (mediaOf (s.tables.insert _ _) postId).map (·.sortOrder) =
      List.range (mediaOf (s.tables.insert _ _) postId).length
    rw [mediaOf_insert]
    split
    · rename_i same
      subst same
      rw [List.map_append, sound.numbered, created_sortOrders, first, List.length_append,
        List.length_map, createAllWithDispatch_length, List.range_add, List.range'_eq_map_range]
    · exact sound.numbered postId
  · rcases List.mem_append.mp member with old | new
    · obtain ⟨post, present, same⟩ := sound.posted media old
      exact ⟨post, List.mem_append_left _ present, same⟩
    · rw [created_postId new]
      unfold Owned at owned
      cases own : traffic.call r with
      | createPost post promoted =>
          exact ⟨post, List.mem_append_right _ (List.mem_singleton_self _), rfl⟩
      | addPostMedia postId promoted =>
          simp only [own] at owned
          obtain ⟨post, present, same⟩ := owned.1
          exact ⟨post, List.mem_append_left _ present, same⟩
  · intro q different
    exact Function.update_of_ne different ..
  · have own : RequestSound traffic ((s.apply r (traffic.call r) start
        (createAllWithDispatch (PostsCall.postId (traffic.call r)) start done)).finish r phase) r
        phase := requestSound_ended ended
    simpa [State.finish, State.goto] using own

end Requests

section Steps

variable {traffic : Traffic} {s t : State} {event : Event}

/-- An id is found exactly when a post has it. -/
theorem exists_iff {tables : Tables} {postId : String} :
    Exists tables postId ↔ (postOf tables postId).isSome = true := by
  simp [Exists, postOf, List.find?_isSome]

/-- A toggle keeps the ids of the posts. -/
theorem exists_toggled {tables : Tables} {postId other : String} {deletedAt : Option Time} :
    Exists { tables with
      posts := tables.posts.map fun post =>
        if post.id = postId then { post with deletedAt := deletedAt } else post } other ↔
      Exists tables other := by
  have ids (post : Post) : (if post.id = postId then { post with deletedAt := deletedAt } else
      post).id = post.id := by
    split <;> rfl
  constructor
  · rintro ⟨post, member, same⟩
    obtain ⟨old, present, rfl⟩ := List.mem_map.mp member
    exact ⟨old, present, (ids old).symm.trans same⟩
  · rintro ⟨post, member, same⟩
    exact ⟨_, List.mem_map_of_mem member, (ids post).trans same⟩

/-- A step of a toggle keeps the posts numbered. -/
theorem Sound.toggle (sound : Sound traffic s) {tables : Tables} {toggles : ToggleId → TogglePhase}
    (posts : ∀ postId, Exists tables postId ↔ Exists s.tables postId)
    (media : tables.media = s.tables.media) :
    Sound traffic { s with tables := tables, toggles := toggles } := by
  have rows (postId : String) : mediaOf tables postId = mediaOf s.tables postId := by
    unfold mediaOf
    rw [media]
  refine ⟨fun postId => ?_, fun row member => ?_, fun q => (sound.requests q).later ?_⟩
  · show (mediaOf tables postId).map (·.sortOrder) = List.range (mediaOf tables postId).length
    rw [rows]
    exact sound.numbered postId
  · apply (posts row.postId).mpr
    apply sound.posted row
    rw [← media]
    exact member
  · exact ⟨fun postId => (posts postId).mpr, fun post _ _ absent => (posts post.id).not.mpr absent,
      fun _ held => held, fun postId _ _ => rows postId⟩

/-- Every event keeps the posts numbered. -/
theorem sound_step (sound : Sound traffic s) (taken : step traffic s event = some t) :
    Sound traffic t := by
  cases event with
  | begin r =>
      simp only [step, stepBegin] at taken
      have own := sound.requests r
      split at taken
      · rename_i post promoted started call
        cases taken
        apply sound.goto
        rw [started] at own
        simp only [RequestSound, call] at own ⊢
        exact ⟨own, trivial, [], rfl, rfl⟩
      · rename_i postId promoted started call
        cases taken
        apply sound.goto
        cases found : postOf s.tables postId with
        | none => simp [RequestSound, call]
        | some post =>
            have present : Exists s.tables postId := exists_iff.mpr (by rw [found]; rfl)
            by_cases active : post.deletedAt = none
            · simpa [RequestSound, call, active] using present
            · simp [RequestSound, call, active]
      · cases taken
  | lock r =>
      simp only [step, stepLock] at taken
      split at taken
      · rename_i postId promoted started call
        split at taken <;> cases taken
        rename_i unlocked
        have own := sound.requests r
        rw [started] at own
        simp only [RequestSound, call] at own
        rw [if_pos (exists_iff.mp own)]
        refine sound.move r sound.numbered sound.posted
          (fun q different => keeps_of_same rfl rfl ?_) ?_ ?_
        · intro other held
          have elsewhere : other ≠ postId := by
            rintro rfl
            simp [held] at unlocked
          simpa [elsewhere] using held
        · intro q different
          exact Function.update_of_ne different ..
        · have granted : RequestSound traffic { s.goto r .locked with
              locks := Function.update s.locks postId (some r) } r .locked := by
            simp only [RequestSound, call]
            exact ⟨own, Function.update_self ..⟩
          simpa [State.goto] using granted
      · cases taken
  | aggregate r =>
      simp only [step, stepAggregate] at taken
      split at taken
      · rename_i postId promoted started call
        cases taken
        have own := sound.requests r
        rw [started] at own
        apply sound.goto
        simp only [RequestSound, call] at own ⊢
        exact ⟨own.1, own.2, nextSortOrder_of_numbered (sound.numbered postId), [], rfl, rfl⟩
      · cases taken
  | insert r =>
      simp only [step, stepInsert] at taken
      split at taken
      · rename_i start created upload pending started
        split at taken <;> cases taken
        have own := sound.requests r
        rw [started] at own
        apply sound.goto
        have grown (postId : String) {done : List PromotedUpload}
            (rows : created = createAllWithDispatch postId start done) :
            created ++ [createWithDispatch (upload.input postId (start + created.length))] =
              createAllWithDispatch postId start (done ++ [upload]) := by
          rw [createAllWithDispatch_concat, rows, createAllWithDispatch_length]
        cases call : traffic.call r with
        | createPost post promoted =>
            simp only [RequestSound, call] at own ⊢
            obtain ⟨unborn, first, done, rfl, rows⟩ := own
            exact ⟨unborn, first, done ++ [upload], by simp, grown post.id rows⟩
        | addPostMedia postId promoted =>
            simp only [RequestSound, call] at own ⊢
            obtain ⟨present, held, first, done, rfl, rows⟩ := own
            exact ⟨present, held, first, done ++ [upload], by simp, grown postId rows⟩
      · cases taken
  | commit r fate =>
      simp only [step, stepCommit] at taken
      split at taken
      · rename_i started
        cases fate <;> cases taken
        · exact sound.apply started (.inr rfl)
        · exact sound.finish (.inl rfl)
        · exact sound.apply started (.inl rfl)
      · cases taken
  | abort r =>
      simp only [step, stepAbort] at taken
      split at taken <;> cases taken <;> exact sound.finish (.inl rfl)
  | read q =>
      simp only [step, stepRead] at taken
      split at taken <;> cases taken
      exact sound.toggle (fun _ => Iff.rfl) rfl
  | update q now =>
      simp only [step, stepUpdate] at taken
      split at taken
      · split at taken <;> cases taken
        exact sound.toggle (fun _ => exists_toggled) rfl
      · cases taken

theorem sound_initial (initial : (machine traffic).initial s) : Sound traffic s := by
  obtain ⟨tables, _, idle, _⟩ := initial
  refine ⟨fun postId => ?_, fun media member => ?_, fun r => ?_⟩
  · rw [tables]
    rfl
  · rw [tables] at member
    cases member
  · rw [idle r]
    unfold RequestSound
    split
    · rw [tables]
      rintro ⟨post, member, _⟩
      cases member
    · trivial

theorem sound_of_reachable {guard : State → Event → Prop}
    (reached : (machine traffic).Reachable guard s) : Sound traffic s :=
  reached.invariant (fun _ => sound_initial) fun _ _ _ _ taken sound => sound_step sound taken

/-- A step commits a complete transaction, or it changes no media. -/
theorem commit_of_step (taken : step traffic s event = some t) :
    t.tables.media = s.tables.media ∧ t.commits = s.commits ∨
      ∃ r start created, s.requests r = .inserting start created [] ∧
        t.tables = s.tables.insert (PostsCall.posts (traffic.call r)) created ∧
        t.commits = s.commits ++
          [⟨r, PostsCall.postId (traffic.call r), start, created.map Prod.fst⟩] := by
  cases event with
  | commit r fate =>
      simp only [step, stepCommit] at taken
      split at taken
      · rename_i start created started
        cases fate <;> cases taken
        · exact .inr ⟨r, start, created, started, rfl, rfl⟩
        · exact .inl ⟨rfl, rfl⟩
        · exact .inr ⟨r, start, created, started, rfl, rfl⟩
      · cases taken
  | begin | lock | aggregate | insert | abort | read | update =>
      simp only [step, stepBegin, stepLock, stepAggregate, stepInsert, stepAbort, stepRead,
        stepUpdate] at taken
      repeat' split at taken
      all_goals cases taken
      all_goals exact .inl ⟨rfl, rfl⟩

/-- A commit is recorded behind the earlier ones. -/
theorem recorded_step (sound : Sound traffic s) (recorded : Recorded traffic s)
    (taken : step traffic s event = some t) : Recorded traffic t := by
  rcases commit_of_step taken with ⟨media, commits⟩ |
    ⟨r, start, created, started, tables, commits⟩
  · refine ⟨?_, ?_, fun batch member => ?_, ?_⟩
    · rw [media, commits]
      exact recorded.media
    · rw [commits]
      exact recorded.batches
    · rw [commits] at member
      have rows : mediaOf t.tables batch.postId = mediaOf s.tables batch.postId := by
        unfold mediaOf
        rw [media]
      rw [rows]
      exact recorded.bounded batch member
    · rw [commits]
      exact recorded.ordered
  · obtain ⟨_, first, done, whole, rfl⟩ := sound.inserting started
    rw [List.append_nil] at whole
    subst whole
    have rows (postId : String) : mediaOf t.tables postId =
        if postId = PostsCall.postId (traffic.call r) then mediaOf s.tables postId ++
          (createAllWithDispatch (PostsCall.postId (traffic.call r)) start
            (PostsCall.promoted (traffic.call r))).map Prod.fst
        else mediaOf s.tables postId := by
      rw [tables]
      exact mediaOf_insert ..
    refine ⟨?_, fun batch member => ?_, fun batch member => ?_, ?_⟩
    · rw [tables, commits, List.flatMap_append, ← recorded.media]
      simp [Tables.insert]
    · rw [commits] at member
      rcases List.mem_append.mp member with old | new
      · exact recorded.batches batch old
      · rw [List.mem_singleton.mp new]
        exact ⟨rfl, rfl⟩
    · rw [commits] at member
      rw [rows]
      rcases List.mem_append.mp member with old | new
      · have bound := recorded.bounded batch old
        split
        · rw [List.length_append]
          omega
        · exact bound
      · apply Nat.le_of_eq
        rw [List.mem_singleton.mp new, if_pos rfl, List.length_append, first]
    · rw [commits, List.pairwise_append]
      refine ⟨recorded.ordered, List.pairwise_singleton .., fun earlier old later new same => ?_⟩
      rw [List.mem_singleton.mp new] at same ⊢
      have bound := recorded.bounded earlier old
      rw [show earlier.postId = PostsCall.postId (traffic.call r) from same] at bound
      show earlier.start + earlier.rows.length ≤ start
      omega

theorem recorded_of_reachable {guard : State → Event → Prop}
    (reached : (machine traffic).Reachable guard s) : Recorded traffic s := by
  apply reached.strengthen (Sound traffic) (fun _ => sound_of_reachable)
  · intro start initial
    obtain ⟨tables, _, _, _, commits⟩ := initial
    refine ⟨?_, ?_, ?_, ?_⟩
    · rw [tables, commits]
      rfl
    · simp [commits]
    · simp [commits]
    · rw [commits]
      exact List.Pairwise.nil
  · exact fun _ _ _ sound _ _ taken recorded => recorded_step sound recorded taken

end Steps

/-- The sort orders of a post are its upload order without gaps. -/
structure SortOrderLaw (traffic : Traffic) (s : State) : Prop where
  gapFree : ∀ postId, (mediaOf s.tables postId).map (·.sortOrder) =
    List.range (mediaOf s.tables postId).length
  committed : s.tables.media = s.commits.flatMap (·.rows)
  uploadOrder : ∀ batch ∈ s.commits,
    batch.postId = PostsCall.postId (traffic.call batch.request) ∧
      batch.rows = (createAllWithDispatch batch.postId batch.start
        (PostsCall.promoted (traffic.call batch.request))).map Prod.fst ∧
      batch.rows.map (·.sortOrder) = List.range' batch.start batch.rows.length
  after : s.commits.Pairwise fun earlier later => earlier.postId = later.postId →
    ∀ first ∈ earlier.rows, ∀ second ∈ later.rows, first.sortOrder < second.sortOrder

/-- Every reachable state of all requests has gap-free sort orders in upload order. -/
theorem machine_sortOrderLaw (traffic : Traffic) (s : State)
    (reached : (machine traffic).Reachable Machine.anything s) : SortOrderLaw traffic s := by
  have recorded := recorded_of_reachable reached
  have consecutive : ∀ batch ∈ s.commits,
      batch.rows.map (·.sortOrder) = List.range' batch.start batch.rows.length := by
    intro batch member
    rw [(recorded.batches batch member).2, created_sortOrders, List.length_map,
      createAllWithDispatch_length]
  have within : ∀ batch ∈ s.commits, ∀ row ∈ batch.rows,
      batch.start ≤ row.sortOrder ∧ row.sortOrder < batch.start + batch.rows.length := by
    intro batch member row inside
    have number : row.sortOrder ∈ batch.rows.map (·.sortOrder) := List.mem_map_of_mem inside
    rw [consecutive batch member, List.mem_range'_1] at number
    exact number
  refine ⟨(sound_of_reachable reached).numbered, recorded.media, fun batch member => ?_, ?_⟩
  · obtain ⟨owner, rows⟩ := recorded.batches batch member
    exact ⟨owner, rows, consecutive batch member⟩
  · apply recorded.ordered.imp_of_mem
    intro earlier later member member' before same first inside second inside'
    have below := (within earlier member first inside).2
    have above := (within later member' second inside').1
    have between := before same
    omega

/-- One promoted image. -/
def promotedImage (mediaId : String) : PromotedUpload where
  upload :=
    { fileIndex := 0
      originalFilename := "photo.png"
      extension := "png"
      declaredMimeType := "image/png"
      detectedMimeType := "image/png"
      detectedFormat := "png"
      mediaType := .image
      sizeBytes := 3
      checksumSha256 := "checksum"
      preliminaryMetadata := .null }
  mediaId := mediaId
  dispatchId := "dispatch-" ++ mediaId
  originalRef := ⟨"originals", "posts/post-0/" ++ mediaId ++ "/original.png"⟩

/-- One client creates a post with an image, and the others add two images each. The first toggle
deletes the post. -/
def sharedPost : Traffic where
  call
    | 0 => .createPost ⟨"post-0", "Title", "", 0, 0, none⟩ [promotedImage "media-0"]
    | 1 => .addPostMedia "post-0" [promotedImage "media-1", promotedImage "media-2"]
    | _ => .addPostMedia "post-0" [promotedImage "media-3", promotedImage "media-4"]
  toggle
    | 0 => .softDelete "post-0"
    | _ => .restore "post-0"
  postId_fresh
    | 0, 0, _, _, _, _, _, _, _ => rfl
    | 0, 1, _, _, _, _, _, other, _ => nomatch other
    | 0, _ + 2, _, _, _, _, _, other, _ => nomatch other
    | 1, _, _, _, _, _, other, _, _ => nomatch other
    | _ + 2, _, _, _, _, _, other, _, _ => nomatch other

def emptyStart : State := ⟨⟨[], [], []⟩, fun _ => none, fun _ => .idle, fun _ => .idle, []⟩

theorem emptyStart_initial (traffic : Traffic) : (machine traffic).initial emptyStart :=
  ⟨rfl, fun _ => rfl, fun _ => rfl, fun _ => rfl, rfl⟩

/-- The post is created, and both other clients see it before either takes its lock. -/
def toBoth : List Event :=
  [.begin 0, .insert 0, .commit 0 .ok, .begin 1, .begin 2]

/-- Two racing requests number their images one behind the other. -/
theorem sharedPost_numbered : ∃ s, (machine sharedPost).Reachable Machine.anything s ∧
    s.tables.media.map (fun media => (media.id, media.sortOrder)) =
      [("media-0", 0), ("media-3", 1), ("media-4", 2), ("media-1", 3), ("media-2", 4)] ∧
      SortOrderLaw sharedPost s := by
  obtain ⟨s, reached, observed⟩ := (machine sharedPost).reachable_of_observed Machine.anything
    (fun s => s.tables.media.map fun media => (media.id, media.sortOrder))
    [("media-0", 0), ("media-3", 1), ("media-4", 2), ("media-1", 3), ("media-2", 4)]
    (toBoth ++ [.lock 2, .aggregate 2, .insert 2, .insert 2, .commit 2 .ok, .lock 1, .aggregate 1,
      .insert 1, .insert 1, .commit 1 .ok]) (emptyStart_initial _) (by decide)
  exact ⟨s, reached, observed, machine_sortOrderLaw sharedPost s reached⟩

end PostsMedia.Sharing
