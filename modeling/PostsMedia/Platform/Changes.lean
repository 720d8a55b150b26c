import PostsMedia.Platform.Soundness
import PostsMedia.Queues.Acceptance

namespace PostsMedia.Platform

open MediaService (WorkerEvent)

open Processing (Rows)

variable {settings : Outbox.Settings} {s t : State} {event : Event} {mediaId : String}
variable {rows : Rows}

/-- Everything that an event can do to the rows of a media. -/
inductive MediaChange (event : Event) (mediaId : String) (rows : Rows) : Rows → Prop
  | same : MediaChange event mediaId rows rows
  | work (worker : WorkerEvent) (ran : event = .work mediaId worker) :
      MediaChange event mediaId rows (worker.run rows)
  | retry (r : RetryId) (position : Nat) (fate : Fate) (dispatch : ProcessingDispatch)
      (committed : event = .commit r position fate) (effective : fate.tookEffect = true)
      (failed : rows.media.processingStatus = .failed) :
      MediaChange event mediaId rows { rows with
        media := rows.media.retried
        dispatches := rows.dispatches ++ [dispatch] }

section Uploads

variable {created : List (Media × ProcessingDispatch)} {positions : String → Nat}

theorem upload_cons (pair : Media × ProcessingDispatch) (rest : List (Media × ProcessingDispatch)) :
    s.upload (pair :: rest) positions =
      { s.store pair.1.id ⟨pair.1, [], [], [pair.2]⟩ with
        outbox := s.outbox.insert pair.2 (positions pair.2.id) }.upload rest positions := rfl

/-- An upload leaves the media alone that it does not create. -/
theorem upload_stored_of_absent (absent : mediaId ∉ created.map (·.1.id)) :
    (s.upload created positions).stored mediaId = s.stored mediaId := by
  induction created generalizing s with
  | nil => rfl
  | cons pair rest ih =>
      rw [List.map_cons, List.mem_cons, not_or] at absent
      rw [upload_cons, ih absent.2]
      simp [State.store, absent.1]

theorem upload_stored_of_mem (distinct : (created.map (·.1.id)).Nodup)
    {pair : Media × ProcessingDispatch} (member : pair ∈ created) :
    (s.upload created positions).stored pair.1.id = some ⟨pair.1, [], [], [pair.2]⟩ := by
  induction created generalizing s with
  | nil => cases member
  | cons first rest ih =>
      rw [List.map_cons, List.nodup_cons] at distinct
      rcases List.mem_cons.mp member with rfl | later
      · rw [upload_cons, upload_stored_of_absent distinct.1]
        simp [State.store]
      · exact ih distinct.2 later

/-- The outbox after an upload has the new dispatches. -/
theorem within_upload {holds : ProcessingDispatch → Prop} (within : Outbox.Within holds s.outbox)
    (good : ∀ pair ∈ created, holds pair.2 ∧ pair.2.inserted = true) :
    Outbox.Within holds (s.upload created positions).outbox := by
  induction created generalizing s with
  | nil => exact within
  | cons pair rest ih =>
      obtain ⟨property, new⟩ := good pair (List.mem_cons_self ..)
      exact ih (within.insert property new _) fun other member =>
        good other (List.mem_cons_of_mem _ member)

end Uploads

theorem upload_retries (created : List (Media × ProcessingDispatch)) (positions : String → Nat) :
    (s.upload created positions).retries = s.retries ∧
      (s.upload created positions).commits = s.commits := by
  induction created generalizing s with
  | nil => exact ⟨rfl, rfl⟩
  | cons pair rest ih => exact ih

/-- A write of one media changes only that media. -/
theorem change_of_store {after : Rows} (present : s.stored mediaId = some rows) {other : String}
    {found : Rows} (stored : s.stored other = some found)
    (table : t.stored = Function.update s.stored mediaId (some after))
    (change : MediaChange event mediaId rows after) :
    ∃ rows', t.stored other = some rows' ∧ MediaChange event other found rows' := by
  rw [table]
  by_cases equal : other = mediaId
  · subst equal
    rw [present] at stored
    cases stored
    exact ⟨after, by simp, change⟩
  · exact ⟨found, by simpa [equal] using stored, .same⟩

/-- Every event does one of these to each media. -/
theorem change_of_step (sound : Sound s) (taken : step settings s event = some t)
    (present : s.stored mediaId = some rows) :
    ∃ rows', t.stored mediaId = some rows' ∧ MediaChange event mediaId rows rows' := by
  have kept (stored : t.stored = s.stored) :
      ∃ rows', t.stored mediaId = some rows' ∧ MediaChange event mediaId rows rows' :=
    ⟨rows, stored ▸ present, .same⟩
  cases effect_of_step taken with
  | @upload postId start promoted positions fresh =>
      refine ⟨rows, ?_, .same⟩
      rw [upload_stored_of_absent, present]
      rw [(createAllWithDispatch_ids postId start promoted).1]
      intro member
      obtain ⟨upload, inside, rfl⟩ := List.mem_map.mp member
      have absent := (fresh.2.2 upload inside).1
      simp [present] at absent
  | work stored _ => exact change_of_store stored present rfl (.work _ rfl)
  | @commit r position fate id updated dispatch found phase started stored _ effective _ =>
      have own := sound.retries r
      rw [started] at own
      obtain ⟨_, found', stored', failed, rfl, _⟩ := own
      rw [stored] at stored'
      cases stored'
      exact change_of_store stored present rfl
        (.retry r position fate dispatch rfl effective failed)
  | begin | read | reject | lock | lose | create | rollback | outbox => exact kept rfl

/-- Only an upload creates a media. -/
theorem created_of_absent (taken : step settings s event = some t)
    (absent : s.stored mediaId = none) (present : t.stored mediaId = some rows) :
    ∃ input, rows = ⟨(createWithDispatch input).1, [], [], [(createWithDispatch input).2]⟩ := by
  have unchanged (same : t.stored mediaId = s.stored mediaId) : False := by
    rw [same, absent] at present
    cases present
  have foreign {name : String} {found after : Rows} (stored : s.stored name = some found)
      (table : t.stored = Function.update s.stored name (some after)) : False := by
    apply unchanged
    rw [table]
    apply Function.update_of_ne
    rintro rfl
    rw [absent] at stored
    cases stored
  cases effect_of_step taken with
  | @upload postId start promoted positions fresh =>
      have ids := (createAllWithDispatch_ids postId start promoted).1
      by_cases new : mediaId ∈ (createAllWithDispatch postId start promoted).map (·.1.id)
      · obtain ⟨pair, member, rfl⟩ := List.mem_map.mp new
        rw [upload_stored_of_mem (by rw [ids]; exact fresh.1) member] at present
        cases present
        obtain ⟨input, rfl⟩ := mem_createAllWithDispatch member
        exact ⟨input, rfl⟩
      · exact (unchanged (upload_stored_of_absent new)).elim
  | work stored _ => exact (foreign stored rfl).elim
  | commit _ stored _ _ _ => exact (foreign stored rfl).elim
  | begin | read | reject | lock | lose | create | rollback | outbox =>
      exact (unchanged rfl).elim

/-- A dispatch that a committed transaction wrote, apart from its outbox columns. -/
def Produced (s : State) (dispatch : ProcessingDispatch) : Prop :=
  ∃ rows, s.stored dispatch.mediaId = some rows ∧ ∃ built ∈ rows.dispatches, built.Same dispatch

/-- No event forgets a dispatch. -/
theorem MediaChange.dispatches {rows' : Rows} (change : MediaChange event mediaId rows rows')
    (leased : rows.media.Leased) : ∀ dispatch ∈ rows.dispatches, dispatch ∈ rows'.dispatches := by
  cases change with
  | same => exact fun _ member => member
  | work worker =>
      rw [(worker_frame leased worker).2.2.2]
      exact fun _ member => member
  | retry => exact fun _ member => List.mem_append_left _ member

theorem Produced.later (sound : Sound s) (taken : step settings s event = some t)
    {dispatch : ProcessingDispatch} (produced : Produced s dispatch) : Produced t dispatch := by
  obtain ⟨rows, present, built, member, same⟩ := produced
  obtain ⟨rows', present', change⟩ := change_of_step sound taken present
  exact ⟨rows', present', built, change.dispatches (sound.media _ rows present).leased built member,
    same⟩

/-- A built dispatch goes to the queue of its own media type. -/
theorem queueName_of_built {media : Media} {dispatch : ProcessingDispatch}
    (built : BuiltFor media dispatch) : dispatch.queueName = queueNameFor media.mediaType := by
  obtain ⟨_, _, _, equal⟩ := built
  rw [equal]
  rfl

theorem Produced.fixed {first second : ProcessingDispatch} (same : first.Same second)
    (produced : Produced s first) : Produced s second := by
  obtain ⟨rows, present, built, member, equal⟩ := produced
  exact ⟨rows, same.mediaId ▸ present, built, member, equal.trans same⟩

/-- An upload inserts new rows into a sound outbox. -/
theorem outboxSound_upload {created : List (Media × ProcessingDispatch)}
    (sound : Outbox.Sound s.outbox) (new : ∀ pair ∈ created, pair.2.inserted = true)
    (distinct : (created.map (·.2.id)).Nodup)
    (fresh : ∀ pair ∈ created, pair.2.id ∉ s.outbox.created) (positions : String → Nat) :
    Outbox.Sound (s.upload created positions).outbox := by
  induction created generalizing s with
  | nil => exact sound
  | cons pair rest ih =>
      rw [List.map_cons, List.nodup_cons] at distinct
      have inserted := sound.insert (new pair (List.mem_cons_self ..))
        (fresh pair (List.mem_cons_self ..)) (positions pair.2.id)
      rw [upload_cons]
      apply ih inserted (fun other member => new other (List.mem_cons_of_mem _ member)) distinct.2
      intro other member known
      rcases List.mem_cons.mp known with same | old
      · exact distinct.1 (same ▸ List.mem_map_of_mem member)
      · exact fresh other (List.mem_cons_of_mem _ member) old

/-- The outbox is sound, and it has only dispatches that a producer wrote. -/
def OutboxSound (s : State) : Prop :=
  Outbox.Sound s.outbox ∧ Outbox.Within (Produced s) s.outbox

/-- An upload fills the outbox with dispatches of its own media. -/
theorem OutboxSound.upload (outbox : OutboxSound s) {postId : String} {start : Nat}
    {promoted : List PromotedUpload} {positions : String → Nat} (fresh : FreshUploads s promoted)
    (later : Outbox.Within (Produced (s.upload (createAllWithDispatch postId start promoted)
      positions)) s.outbox) :
    OutboxSound (s.upload (createAllWithDispatch postId start promoted) positions) := by
  obtain ⟨ids, dispatchIds⟩ := createAllWithDispatch_ids postId start promoted
  constructor
  · apply outboxSound_upload outbox.1
    · intro pair member
      obtain ⟨input, rfl⟩ := mem_createAllWithDispatch member
      rfl
    · rw [dispatchIds]
      exact fresh.2.1
    · intro pair member
      have named : pair.2.id ∈ promoted.map (·.dispatchId) :=
        dispatchIds ▸ List.mem_map_of_mem member
      obtain ⟨upload, inside, same⟩ := List.mem_map.mp named
      rw [← same]
      exact (fresh.2.2 upload inside).2
  · apply within_upload later
    intro pair member
    obtain ⟨input, rfl⟩ := mem_createAllWithDispatch member
    refine ⟨⟨_, upload_stored_of_mem ?_ member, _, List.mem_singleton_self _, .refl _⟩, rfl⟩
    rw [ids]
    exact fresh.1

/-- Every event keeps an outbox of produced dispatches. -/
theorem outboxSound_step (sound : Sound s) (outbox : OutboxSound s)
    (taken : step settings s event = some t) : OutboxSound t := by
  have later := outbox.2.mono fun _ produced => produced.later sound taken
  have kept (same : t.outbox = s.outbox) : OutboxSound t := by
    rw [OutboxSound, same]
    exact ⟨outbox.1, later⟩
  cases effect_of_step taken with
  | upload fresh => exact outbox.upload fresh later
  | @commit r position fate id updated dispatch rows phase started present fresh _ _ =>
      have own := sound.retries r
      rw [started] at own
      obtain ⟨_, found, stored, _, _, _, _, _, _, built⟩ := own
      rw [present] at stored
      cases stored
      have owner : dispatch.mediaId = uuidColumn id := by
        rw [built]
        exact (sound.media (uuidColumn id) rows present).id
      have new : dispatch.inserted = true := by
        rw [built]
        rfl
      refine ⟨outbox.1.insert new fresh position, later.insert ?_ new position⟩
      refine ⟨{ rows with
          media := updated
          dispatches := rows.dispatches ++ [dispatch] }, ?_, dispatch,
        List.mem_append_right _ (List.mem_singleton_self _), .refl _⟩
      rw [owner]
      exact Function.update_self ..
  | outbox inserts stepped =>
      exact ⟨Outbox.sound_step outbox.1 stepped,
        Outbox.within_step (fun _ _ same produced => produced.fixed same) outbox.1 later inserts
          stepped⟩
  | work | begin | read | reject | lock | lose | create | rollback => exact kept rfl

theorem outboxSound_of_reachable {guard : State → Event → Prop}
    (reached : (machine settings).Reachable guard s) : OutboxSound s := by
  apply reached.strengthen Sound (fun _ => sound_of_reachable)
  · intro start initial
    refine ⟨Outbox.sound_initial initial.1, ?_⟩
    obtain ⟨⟨rows, _, idle, queued, _⟩, _⟩ := initial
    refine ⟨by simp [rows], fun token id => ?_, by simp [queued]⟩
    rw [idle token id]
    trivial
  · exact fun _ _ _ sound _ _ taken outbox => outboxSound_step sound outbox taken

end PostsMedia.Platform
