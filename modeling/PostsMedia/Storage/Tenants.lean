import PostsMedia.Library.Tenants
import PostsMedia.Posts.Originals
import PostsMedia.Processing.Publication

namespace PostsMedia.Traffic

open Machine

/-- The upload requests of the API and the workers, with whatever buckets. -/
structure Site where
  intake : Promotion.Intake
  deployment : Processing.Deployment

/-- Who uses the object storage: all upload requests, or the executions for one of their media. -/
inductive Party
  | uploads
  | media (r index : Nat)
  deriving DecidableEq

abbrev Party.State : Party → Type
  | .uploads => Promotion.State
  | .media _ _ => Processing.State

abbrev Party.Event : Party → Type
  | .uploads => Promotion.Event
  | .media _ _ => Processing.Event

/-- Conditions on the steps, which see no object. -/
structure Conditions where
  requests : Promotion.State → Promotion.Event → Prop
  work : Processing.State → Processing.Event → Prop
  requests_blind : ∀ s objects event, requests { s with objects := objects } event →
    requests s event
  work_blind : ∀ s objects event, work { s with objects := objects } event → work s event

def Conditions.none : Conditions where
  requests := Machine.anything
  work := Machine.anything
  requests_blind _ _ _ admitted := admitted
  work_blind _ _ _ admitted := admitted

/-- No two requests mix under one staging key and no two executions under one attempt, and every
statement of the database that takes effect is acknowledged. -/
def Conditions.exclusive (site : Site) : Conditions where
  requests := Promotion.ExclusiveStaging site.intake
  work := Processing.ExclusiveAttempts
  requests_blind _ _ _ admitted := admitted
  work_blind _ _ _ admitted := admitted

section Tenants

variable (site : Site) (conditions : Conditions)

/-- The keys of the upload requests. -/
def Uploaded (ref : ObjectRef) : Prop :=
  (∃ r file, ref = site.intake.stagingRef r file) ∨
    ∃ r index file, ref = site.intake.originalRef r index file

def uploads : Tenant Promotion.State Promotion.Event ObjectRef (Option Bytes) where
  machine := Promotion.machine site.intake
  admits := conditions.requests
  objects s := s.objects
  place s objects := { s with objects := objects }
  footprint := Uploaded site
  place_objects _ := rfl
  objects_place _ _ := rfl
  place_place _ _ _ := rfl

/-- The row of a media as `createWithDispatch` inserts it for an upload. -/
structure OfUpload (r index : Nat) (media : Media) : Prop where
  id : media.id = site.intake.mediaUuid r index
  postId : media.postId = uuidColumn (site.intake.postId r)
  profile : media.processingProfile = "balanced-v1"

/-- The keys of the executions for one media. -/
def Processed (r index : Nat) (ref : ObjectRef) : Prop :=
  ∃ run : Processing.Run, OfUpload site r index run.media ∧ ∃ artifact,
    ref = Processing.tempRef site.deployment run artifact ∨
      ref = Processing.finalRef site.deployment run artifact

def executions (r index : Nat) :
    Tenant Processing.State Processing.Event ObjectRef (Option Bytes) where
  machine := (Processing.machine site.deployment).narrow fun s =>
    OfUpload site r index s.rows.media
  admits := conditions.work
  objects s := s.objects
  place s objects := { s with objects := objects }
  footprint := Processed site r index
  place_objects _ := rfl
  objects_place _ _ := rfl
  place_place _ _ _ := rfl

def tenant : ∀ party : Party, Tenant party.State party.Event ObjectRef (Option Bytes)
  | .uploads => uploads site conditions
  | .media r index => executions site conditions r index

end Tenants

variable {site : Site} {conditions : Conditions}

section Uploads

open Promotion

variable {r : Nat} {s t : Promotion.State} {store : ObjectRef → Option Bytes}

theorem staged (file : ValidatedFile site.intake.sha256) :
    Uploaded site (site.intake.stagingRef r file) := .inl ⟨r, file, rfl⟩

theorem promoted (index : Nat) (file : ValidatedFile site.intake.sha256) :
    Uploaded site (site.intake.originalRef r index file) := .inr ⟨r, index, file, rfl⟩

/-- The objects that a request has promoted. -/
def promotions : Promotion.Phase → List ObjectRef
  | .staging _ promoted | .copying _ promoted | .unstaging _ promoted _ | .committing promoted
  | .compensating promoted => promoted
  | .idle | .ended => []

/-- A request promotes originals of its own. -/
def Promoting (intake : Intake) (s : Promotion.State) : Prop :=
  ∀ r, ∀ ref ∈ promotions (s.requests r), ∃ index file, ref = intake.originalRef r index file

theorem Promoting.update {intake : Intake} {phase : Promotion.Phase}
    (promoting : Promoting intake s) (requests : t.requests = Function.update s.requests r phase)
    (own : ∀ ref ∈ promotions phase, ∃ index file, ref = intake.originalRef r index file) :
    Promoting intake t := by
  intro r'
  rw [requests]
  by_cases same : r' = r
  · subst same
    rw [Function.update_self]
    exact own
  · rw [Function.update_of_ne same]
    exact promoting r'

theorem promotions_nextUpload (intake : Intake) (r index : Nat) (promoted : List ObjectRef) :
    promotions (nextUpload intake r index promoted) = promoted := by
  unfold nextUpload
  split <;> rfl

theorem promoting_step {intake : Intake} {event : Promotion.Event}
    (promoting : Promoting intake s) (taken : Promotion.step intake s event = some t) :
    Promoting intake t := by
  cases event with
  | arrive r =>
      obtain ⟨-, moved⟩ := Option.ite_none_right_eq_some.mp taken
      cases moved
      refine promoting.update rfl ?_
      rw [promotions_nextUpload]
      exact fun ref none => by cases none
  | put r fate =>
      simp only [Promotion.step, stepPut] at taken
      split at taken
      · rename_i index promoted started
        have own := started ▸ promoting r
        obtain ⟨file, -, rfl⟩ := Option.map_eq_some_iff.mp taken
        cases fate <;> exact promoting.update rfl own
      · cases taken
  | copy r fate =>
      simp only [Promotion.step, stepCopy] at taken
      split at taken
      · rename_i index promoted started
        have own := started ▸ promoting r
        obtain ⟨file, -, rfl⟩ := Option.map_eq_some_iff.mp taken
        split
        · refine promoting.update rfl fun ref member => ?_
          rcases List.mem_append.mp member with before | last
          · exact own ref before
          · exact ⟨index, file, List.mem_singleton.mp last⟩
        · exact promoting.update rfl own
        · exact promoting.update rfl own
      · cases taken
  | unstage r removed =>
      simp only [Promotion.step, stepUnstage] at taken
      split at taken
      · rename_i index promoted failed started
        have own := started ▸ promoting r
        obtain ⟨file, -, rfl⟩ := Option.map_eq_some_iff.mp taken
        have next : ∀ ref ∈ promotions (if failed then .compensating promoted
            else nextUpload intake r (index + 1) promoted),
            ∃ index file, ref = intake.originalRef r index file := by
          cases failed
          · rw [if_neg Bool.false_ne_true, promotions_nextUpload]
            exact own
          · exact own
        cases removed <;> exact promoting.update rfl next
      · cases taken
  | commit r fate =>
      simp only [Promotion.step, stepCommit] at taken
      split at taken
      · rename_i promoted started
        have own := started ▸ promoting r
        split at taken <;> cases taken
        · exact promoting.update rfl fun ref none => by cases none
        · exact promoting.update rfl own
        · exact promoting.update rfl own
      · cases taken
  | compensate r removed =>
      simp only [Promotion.step, stepCompensate] at taken
      split at taken
      · rename_i ref rest started
        have own := started ▸ promoting r
        cases taken
        cases removed <;>
          exact promoting.update rfl fun other member => own other (List.mem_cons_of_mem _ member)
      · cases taken
        exact promoting.update rfl fun ref none => by cases none
      · cases taken
  | crash r =>
      obtain ⟨-, moved⟩ := Option.ite_none_left_eq_some.mp taken
      cases moved
      exact promoting.update rfl fun ref none => by cases none

theorem promoting_of_reachable {intake : Intake}
    {guard : Promotion.State → Promotion.Event → Prop}
    (reached : (Promotion.machine intake).Reachable guard s) : Promoting intake s := by
  refine reached.invariant ?_ fun _ _ _ _ taken promoting => promoting_step promoting taken
  rintro start ⟨-, idle⟩ r
  rw [idle r]
  exact fun ref none => by cases none

/-- A step over another store, and the same step over the own one. -/
def FollowsUpload (site : Site) (s : Promotion.State) (store : ObjectRef → Option Bytes)
    (event : Promotion.Event) (t : Promotion.State) : Prop :=
  ∃ (next : Promotion.State) (edit : Edit ObjectRef (Option Bytes)),
    edit.Within (Uploaded site) ∧
      Promotion.step site.intake s event = some { next with objects := edit.apply s.objects } ∧
        t = { next with objects := edit.apply store }

theorem follows_put {fate : Fate}
    (taken : stepPut site.intake { s with objects := store } r fate = some t) :
    FollowsUpload site s store (.put r fate) t := by
  simp only [FollowsUpload, Promotion.step, stepPut] at taken ⊢
  split at taken
  · rename_i index promoted started
    obtain ⟨file, submitted, rfl⟩ := Option.map_eq_some_iff.mp taken
    simp only [submitted, Option.map_some, Option.some.injEq]
    cases fate with
    | ok => exact ⟨s.goto r (.copying index promoted), .set _ _, staged file, rfl, rfl⟩
    | unacknowledged =>
        exact ⟨s.goto r (.compensating promoted), .set _ _, staged file, rfl, rfl⟩
    | refused => exact ⟨s.goto r (.compensating promoted), .keep, trivial, rfl, rfl⟩
  · cases taken

/-- The copy reads a staging object, which no other party writes. -/
theorem follows_copy {fate : Fate}
    (agree : ∀ ref, Uploaded site ref → store ref = s.objects ref)
    (taken : stepCopy site.intake { s with objects := store } r fate = some t) :
    FollowsUpload site s store (.copy r fate) t := by
  simp only [FollowsUpload, Promotion.step, stepCopy] at taken ⊢
  split at taken
  · rename_i index promoted started
    obtain ⟨file, submitted, rfl⟩ := Option.map_eq_some_iff.mp taken
    simp only [submitted, Option.map_some, Option.some.injEq, agree _ (staged file)]
    cases present : s.objects (site.intake.stagingRef r file) with
    | none => exact ⟨s.goto r (.unstaging index promoted true), .keep, trivial, rfl, rfl⟩
    | some content =>
        cases fate with
        | ok =>
            let promoted' := promoted ++ [site.intake.originalRef r index file]
            exact ⟨s.goto r (.unstaging index promoted' false), .set _ _,
              Traffic.promoted index file, rfl, rfl⟩
        | unacknowledged =>
            exact ⟨s.goto r (.unstaging index promoted true), .set _ _,
              Traffic.promoted index file, rfl, rfl⟩
        | refused => exact ⟨s.goto r (.unstaging index promoted true), .keep, trivial, rfl, rfl⟩
  · cases taken

theorem follows_unstage {removed : Bool}
    (taken : stepUnstage site.intake { s with objects := store } r removed = some t) :
    FollowsUpload site s store (.unstage r removed) t := by
  simp only [FollowsUpload, Promotion.step, stepUnstage] at taken ⊢
  split at taken
  · rename_i index promoted failed started
    obtain ⟨file, submitted, rfl⟩ := Option.map_eq_some_iff.mp taken
    simp only [submitted, Option.map_some, Option.some.injEq]
    cases removed with
    | true => exact ⟨s.goto r _, .set _ none, staged file, rfl, rfl⟩
    | false => exact ⟨s.goto r _, .keep, trivial, rfl, rfl⟩
  · cases taken

theorem follows_commit {fate : Fate}
    (taken : stepCommit site.intake { s with objects := store } r fate = some t) :
    FollowsUpload site s store (.commit r fate) t := by
  simp only [FollowsUpload, Promotion.step, stepCommit] at taken ⊢
  split at taken
  · rename_i promoted started
    cases written : site.intake.transaction r promoted s.tables with
    | none =>
        simp only [written] at taken
        cases taken
        exact ⟨s.goto r (.compensating promoted), .keep, trivial, rfl, rfl⟩
    | some tables =>
        simp only [written] at taken
        cases fate with
        | ok =>
            cases taken
            exact ⟨s.writing r tables .ended, .keep, trivial, rfl, rfl⟩
        | unacknowledged =>
            cases taken
            exact ⟨s.writing r tables (.compensating promoted), .keep, trivial, rfl, rfl⟩
        | refused =>
            cases taken
            exact ⟨s.goto r (.compensating promoted), .keep, trivial, rfl, rfl⟩
  · cases taken

/-- A compensation removes what its own request promoted. -/
theorem follows_compensate {removed : Bool} (promoting : Promoting site.intake s)
    (taken : stepCompensate { s with objects := store } r removed = some t) :
    FollowsUpload site s store (.compensate r removed) t := by
  simp only [FollowsUpload, Promotion.step, stepCompensate] at taken ⊢
  split at taken
  · rename_i ref rest started
    have own := started ▸ promoting r
    obtain ⟨index, file, rfl⟩ := own ref List.mem_cons_self
    cases removed with
    | true =>
        cases taken
        exact ⟨s.goto r (.compensating rest), .set _ none, Traffic.promoted index file, rfl, rfl⟩
    | false =>
        cases taken
        exact ⟨s.goto r (.compensating rest), .keep, trivial, rfl, rfl⟩
  · cases taken
    exact ⟨s.goto r .ended, .keep, trivial, rfl, rfl⟩
  · cases taken

theorem uploads_local : (uploads site conditions).Local := by
  intro s store event t reached agree admitted taken
  refine ⟨conditions.requests_blind s store event admitted, ?_⟩
  show FollowsUpload site s store event t
  cases event with
  | arrive r =>
      obtain ⟨idle, moved⟩ := Option.ite_none_right_eq_some.mp taken
      cases moved
      exact ⟨s.goto r _, .keep, trivial, if_pos idle, rfl⟩
  | put r fate => exact follows_put taken
  | copy r fate => exact follows_copy agree taken
  | unstage r removed => exact follows_unstage taken
  | commit r fate => exact follows_commit taken
  | compensate r removed => exact follows_compensate (promoting_of_reachable reached) taken
  | crash r =>
      obtain ⟨live, moved⟩ := Option.ite_none_left_eq_some.mp taken
      cases moved
      exact ⟨s.goto r .ended, .keep, trivial, if_neg live, rfl⟩

end Uploads

section Executions

open Processing

variable {deployment : Deployment} {s t : Processing.State} {x : ExecutionId}
  {phase : Processing.Phase}
  {action : Action} {outcome : Outcome} {store : ObjectRef → Option Bytes} {r index : Nat}

/-- The objects that an execution has stored or is about to store. -/
def refs : Processing.Phase → List ObjectRef
  | .uploading _ upload _ | .committing _ upload => upload.temporary ++ upload.finals
  | .removing _ refs _ => refs
  | _ => []

/-- The objects of an execution are those of its run. -/
def Own (deployment : Deployment) (phase : Processing.Phase) : Prop :=
  ∀ run, phase.run = some run → ∀ ref ∈ refs phase, ∃ artifact,
    ref = tempRef deployment run artifact ∨ ref = finalRef deployment run artifact

theorem own_nextUpload {run : Run} {upload : Upload}
    (own : ∀ ref ∈ upload.temporary ++ upload.finals, ∃ artifact,
      ref = tempRef deployment run artifact ∨ ref = finalRef deployment run artifact) :
    Traffic.Own deployment (nextUpload run upload) := by
  unfold nextUpload
  split <;> exact fun _ same => Option.some.inj same ▸ own

theorem own_abortUpload {run : Run} {upload : Upload} (error : String)
    (own : ∀ ref ∈ upload.temporary ++ upload.finals, ∃ artifact,
      ref = tempRef deployment run artifact ∨ ref = finalRef deployment run artifact) :
    Traffic.Own deployment (abortUpload run upload error) := by
  rintro _ ⟨⟩ ref member
  rcases List.mem_append.mp member with first | again
  · exact own ref first
  · exact own ref (List.mem_append_left _ again)

theorem own_of_act (own : Traffic.Own deployment phase)
    (taken : act deployment s x action phase = some outcome) :
    Traffic.Own deployment outcome.phase := by
  have statement := statement_of_act taken
  cases statement with
  | handle run result files => exact own_nextUpload fun ref none => by cases none
  | put run upload artifact =>
      rintro _ ⟨⟩ ref member
      rcases List.mem_append.mp member with temporary | final
      · rcases List.mem_append.mp temporary with earlier | last
        · exact own run rfl ref (List.mem_append_left _ earlier)
        · exact ⟨artifact, .inl (List.mem_singleton.mp last)⟩
      · exact own run rfl ref (List.mem_append_right _ final)
  | check run upload artifact =>
      rintro _ ⟨⟩ ref member
      rcases List.mem_append.mp member with temporary | final
      · exact own run rfl ref (List.mem_append_left _ temporary)
      · rcases List.mem_append.mp final with earlier | last
        · exact own run rfl ref (List.mem_append_right _ earlier)
        · exact ⟨artifact, .inr (List.mem_singleton.mp last)⟩
  | copy run => exact own
  | verify run upload => exact own_nextUpload (own run rfl)
  | putUnacknowledged run | copyUnacknowledged run | abort run | publishUnacknowledged run
  | publishLost run => exact own_abortUpload _ (own run rfl)
  | publish run =>
      exact fun _ same ref member => own _ same ref (List.mem_append_left _ member)
  | skip run | remove run =>
      exact fun _ same other member => own _ same other (List.mem_cons_of_mem _ member)
  | _ => exact fun _ _ ref none => by cases none

theorem own_step {event : Processing.Event}
    (own : ∀ x, Traffic.Own deployment (s.executions x))
    (taken : Processing.step deployment s event = some t) :
    ∀ y, Traffic.Own deployment (t.executions y) := by
  intro y
  have moved {x : ExecutionId} {outcome : Outcome} (next : Traffic.Own deployment outcome.phase)
      (same : t = s.commit x outcome) : Traffic.Own deployment (t.executions y) := by
    rw [same]
    by_cases here : y = x
    · subst here
      rwa [show (s.commit y outcome).executions y = outcome.phase from Function.update_self ..]
    · rw [show (s.commit x outcome).executions y = s.executions y from
        Function.update_of_ne here ..]
      exact own y
  cases event with
  | tick | outbox =>
      cases taken
      exact own y
  | deliver x payload attemptsMade =>
      simp only [Processing.step] at taken
      split at taken
      · obtain ⟨-, same⟩ := Option.ite_none_right_eq_some.mp taken
        exact moved (fun _ _ ref none => by cases none) (Option.some.inj same).symm
      · cases taken
  | run x action =>
      obtain ⟨outcome, acted, rfl⟩ := Option.map_eq_some_iff.mp taken
      exact moved (own_of_act (own x) acted) rfl
  | renew x generation asOf =>
      obtain ⟨-, same⟩ := Option.ite_none_right_eq_some.mp taken
      cases same
      exact own y
  | crash x =>
      obtain ⟨-, same⟩ := Option.ite_none_right_eq_some.mp taken
      exact moved (fun _ _ ref none => by cases none) (Option.some.inj same).symm
  | retry id dispatchId =>
      obtain ⟨rows, -, rfl⟩ := Option.map_eq_some_iff.mp taken
      exact own y

theorem own_of_reachable {guard : Processing.State → Processing.Event → Prop}
    (reached : (Processing.machine deployment).Reachable guard s) :
    ∀ x, Traffic.Own deployment (s.executions x) := by
  have first : ∀ s, (Processing.machine deployment).initial s →
      ∀ x, Traffic.Own deployment (s.executions x) := by
    rintro start ⟨-, -, -, idle, -⟩ x
    rw [idle x]
    exact fun _ _ ref none => by cases none
  exact reached.invariant first fun _ _ _ _ taken own => own_step own taken

/-- The statement uses no object. -/
def quiet : Action → Bool
  | .put .. | .check .. | .copy .. | .verify .. | .remove .. => false
  | _ => true

theorem act_quiet (still : quiet action = true) (store : ObjectRef → Option Bytes) :
    act deployment { s with objects := store } x action phase =
      (act deployment s x action phase).map fun outcome => { outcome with objects := store } := by
  cases action with
  | put | check | copy | verify | remove => cases still
  | claim fate =>
      simp only [act, actClaim]
      split
      · split
        · rfl
        · split <;> rfl
      · rfl
  | read found =>
      simp only [act, actRead]
      split <;> rfl
  | createAttempt fate =>
      simp only [act, actCreateAttempt]
      split
      · cases fate <;> rfl
      · rfl
  | createWorkspace created =>
      simp only [act, actCreateWorkspace]
      split <;> rfl
  | downloadAndVerify failure =>
      simp only [act, actDownloadAndVerify]
      split <;> rfl
  | handle result =>
      simp only [act, actHandle]
      split
      · cases result <;> rfl
      · rfl
  | publish fate error =>
      simp only [act, actPublish]
      split
      · split
        · rfl
        · split
          · rfl
          · split <;> rfl
      · rfl
  | complete fate error =>
      simp only [act, actComplete]
      split
      · cases fate <;> rfl
      · rfl
  | fail fate =>
      simp only [act, actFail]
      split
      · split <;> rfl
      · rfl

/-- A statement over another store, and the same statement over the own one. -/
def FollowsStatement (site : Site) (r index : Nat) (s : Processing.State) (x : ExecutionId)
    (phase : Processing.Phase) (store : ObjectRef → Option Bytes) (action : Action)
    (outcome : Outcome) : Prop :=
  ∃ (next : Outcome) (edit : Edit ObjectRef (Option Bytes)),
    edit.Within (Processed site r index) ∧
      act site.deployment s x action phase = some { next with objects := edit.apply s.objects } ∧
        outcome = { next with objects := edit.apply store }

theorem follows_quiet (still : quiet action = true)
    (taken : act site.deployment { s with objects := store } x action phase = some outcome) :
    FollowsStatement site r index s x phase store action outcome := by
  have own : act site.deployment { s with objects := s.objects } x action phase =
      (act site.deployment s x action phase).map fun outcome =>
        { outcome with objects := s.objects } := act_quiet still s.objects
  rw [act_quiet still] at taken
  obtain ⟨next, moved, rfl⟩ := Option.map_eq_some_iff.mp taken
  refine ⟨next, .keep, trivial, ?_, rfl⟩
  rw [moved] at own ⊢
  exact own

theorem placed {run : Run} (own : OfUpload site r index run.media) (artifact : ProcessedArtifact) :
    Processed site r index (tempRef site.deployment run artifact) := ⟨run, own, artifact, .inl rfl⟩

theorem published {run : Run} (own : OfUpload site r index run.media)
    (artifact : ProcessedArtifact) :
    Processed site r index (finalRef site.deployment run artifact) := ⟨run, own, artifact, .inr rfl⟩

theorem upload_put {fate : Fate} {error : String}
    (own : ∀ run, phase.run = some run → OfUpload site r index run.media)
    (taken : actPut site.deployment { s with objects := store } fate error phase = some outcome) :
    FollowsStatement site r index s x phase store (.put fate error) outcome := by
  simp only [FollowsStatement, act, actPut] at taken ⊢
  split at taken
  · rename_i run upload
    split at taken
    · cases taken
    · rename_i artifact rest current
      split at taken
      · cases taken
        exact ⟨s.goto (abortUpload run upload error), .keep, trivial, rfl, rfl⟩
      · cases taken
        exact ⟨s.goto (abortUpload run upload _), .keep, trivial, rfl, rfl⟩
      · rename_i content file
        have mine := placed (own run rfl) artifact
        cases fate with
        | ok =>
            cases taken
            exact ⟨s.goto _, .set _ _, mine, rfl, rfl⟩
        | unacknowledged =>
            cases taken
            exact ⟨s.goto (abortUpload run upload error), .set _ _, mine, rfl, rfl⟩
        | refused =>
            cases taken
            exact ⟨s.goto (abortUpload run upload error), .keep, trivial, rfl, rfl⟩
  · cases taken

theorem upload_check {failure : Option String}
    (own : ∀ run, phase.run = some run → OfUpload site r index run.media)
    (agree : ∀ ref, Processed site r index ref → store ref = s.objects ref)
    (taken : actCheck site.deployment { s with objects := store } failure phase = some outcome) :
    FollowsStatement site r index s x phase store (.check failure) outcome := by
  simp only [FollowsStatement, act, actCheck] at taken ⊢
  split at taken
  · rename_i run upload
    split at taken
    · cases taken
    · rename_i artifact rest current
      simp only [agree _ (placed (own run rfl) artifact)] at taken
      split at taken
      · rename_i present
        cases taken
        exact ⟨s.goto _, .keep, trivial, if_pos present, rfl⟩
      · rename_i absent
        cases taken
        exact ⟨s.goto _, .keep, trivial, if_neg absent, rfl⟩
  · cases taken

/-- The copy reads a temporary object, which no other party writes. -/
theorem upload_copy {fate : Fate} {error : String}
    (own : ∀ run, phase.run = some run → OfUpload site r index run.media)
    (agree : ∀ ref, Processed site r index ref → store ref = s.objects ref)
    (taken : actCopy site.deployment { s with objects := store } fate error phase = some outcome) :
    FollowsStatement site r index s x phase store (.copy fate error) outcome := by
  simp only [FollowsStatement, act, actCopy] at taken ⊢
  split at taken
  · rename_i run upload
    split at taken
    · cases taken
    · rename_i artifact rest current
      have mine := published (own run rfl) artifact
      simp only [agree _ (placed (own run rfl) artifact)] at taken
      cases source : s.objects (tempRef site.deployment run artifact) with
      | none =>
          simp only [source] at taken
          cases taken
          exact ⟨s.goto (abortUpload run upload error), .keep, trivial, rfl, rfl⟩
      | some content =>
          simp only [source] at taken
          cases fate with
          | ok =>
              cases taken
              exact ⟨s.goto (.uploading run upload .verify), .set _ _, mine, rfl, rfl⟩
          | unacknowledged =>
              cases taken
              exact ⟨s.goto (abortUpload run upload error), .set _ _, mine, rfl, rfl⟩
          | refused =>
              cases taken
              exact ⟨s.goto (abortUpload run upload error), .keep, trivial, rfl, rfl⟩
  · cases taken

theorem upload_verify {failure : Option String}
    (own : ∀ run, phase.run = some run → OfUpload site r index run.media)
    (agree : ∀ ref, Processed site r index ref → store ref = s.objects ref)
    (taken : actVerify site.deployment { s with objects := store } failure phase = some outcome) :
    FollowsStatement site r index s x phase store (.verify failure) outcome := by
  simp only [FollowsStatement, act, actVerify] at taken ⊢
  split at taken
  · rename_i run upload
    split at taken
    · cases taken
    · rename_i artifact rest current
      simp only [agree _ (published (own run rfl) artifact)] at taken
      split at taken
      · rename_i present
        cases taken
        exact ⟨s.goto _, .keep, trivial, if_pos present, rfl⟩
      · rename_i absent
        cases taken
        exact ⟨s.goto _, .keep, trivial, if_neg absent, rfl⟩
  · cases taken

/-- A removal is of what its own publication uploaded. -/
theorem upload_remove {removed : Bool}
    (own : ∀ run, phase.run = some run → OfUpload site r index run.media)
    (mine : Traffic.Own site.deployment phase)
    (taken : actRemove { s with objects := store } removed phase = some outcome) :
    FollowsStatement site r index s x phase store (.remove removed) outcome := by
  simp only [FollowsStatement, act, actRemove] at taken ⊢
  split at taken
  · rename_i run ref rest failure
    have member : Processed site r index ref := by
      obtain ⟨artifact, rfl | rfl⟩ := mine run rfl ref List.mem_cons_self
      · exact placed (own run rfl) artifact
      · exact published (own run rfl) artifact
    cases removed with
    | true =>
        cases taken
        exact ⟨s.goto (.removing run rest failure), .set _ none, member, rfl, rfl⟩
    | false =>
        cases taken
        exact ⟨s.goto (.removing run rest failure), .keep, trivial, rfl, rfl⟩
  · rename_i run
    cases taken
    exact ⟨s.goto (.completing run), .keep, trivial, rfl, rfl⟩
  · rename_i run error
    cases taken
    exact ⟨s.goto (.failing run error), .keep, trivial, rfl, rfl⟩
  · cases taken

theorem follows_act (own : ∀ run, phase.run = some run → OfUpload site r index run.media)
    (agree : ∀ ref, Processed site r index ref → store ref = s.objects ref)
    (mine : Traffic.Own site.deployment phase)
    (taken : act site.deployment { s with objects := store } x action phase = some outcome) :
    FollowsStatement site r index s x phase store action outcome := by
  cases action with
  | put fate error => exact upload_put own taken
  | check failure => exact upload_check own agree taken
  | copy fate error => exact upload_copy own agree taken
  | verify failure => exact upload_verify own agree taken
  | remove removed => exact upload_remove own mine taken
  | claim | read | createAttempt | createWorkspace | downloadAndVerify | handle | publish |
    complete | fail => exact follows_quiet rfl taken

theorem OfUpload.same {media later : Media} (own : OfUpload site r index media)
    (same : SameMedia media later) : OfUpload site r index later where
  id := same.id.symm.trans own.id
  postId := same.postId.symm.trans own.postId
  profile := same.profile.symm.trans own.profile

theorem same_of_act (leased : s.rows.media.Leased)
    (taken : act deployment s x action phase = some outcome) :
    SameMedia s.rows.media outcome.rows.media := by
  cases statement_of_act taken with
  | claim payload attemptsMade asOf | claimUnacknowledged payload attemptsMade asOf =>
      exact (progress_claim "" ..).same
  | attempt payload attemptsMade media | attemptUnacknowledged payload attemptsMade media =>
      have kept := (createAttempt_spec s.rows (newAttempt deployment x payload attemptsMade)).2.1
      show SameMedia s.rows.media (createAttempt s.rows _).1.media
      rw [kept]
      exact .refl _
  | publish | publishUnacknowledged | complete | completeUnacknowledged | fail =>
      exact (progress_run "" _ leased ..).same
  | _ => exact .refl _

theorem same_of_step {event : Processing.Event} (leased : s.rows.media.Leased)
    (taken : Processing.step deployment s event = some t) :
    SameMedia s.rows.media t.rows.media := by
  cases event with
  | tick | outbox =>
      cases taken
      exact .refl _
  | deliver x payload attemptsMade =>
      simp only [Processing.step] at taken
      split at taken
      · obtain ⟨-, moved⟩ := Option.ite_none_right_eq_some.mp taken
        cases moved
        exact .refl _
      · cases taken
  | run x action =>
      obtain ⟨outcome, moved, rfl⟩ := Option.map_eq_some_iff.mp taken
      exact same_of_act leased moved
  | renew x generation asOf =>
      obtain ⟨-, moved⟩ := Option.ite_none_right_eq_some.mp taken
      cases moved
      exact (progress_run "" _ leased ..).same
  | crash x =>
      obtain ⟨-, moved⟩ := Option.ite_none_right_eq_some.mp taken
      cases moved
      exact .refl _
  | retry id dispatchId =>
      obtain ⟨rows, retried, rfl⟩ := Option.map_eq_some_iff.mp taken
      exact (progress_retry "" retried).same

/-- The row of the media keeps the columns that its keys are made of. -/
theorem ofUpload_of_reachable
    {guard : Processing.State → Processing.Event → Prop}
    (reached : (executions site conditions r index).machine.Reachable guard s) :
    OfUpload site r index s.rows.media := by
  show (fun s : Processing.State => OfUpload site r index s.rows.media) s
  refine reached.strengthen (fun s : Processing.State => s.rows.media.Leased)
    (fun _ earlier => (invariant_of_reachable earlier.of_narrow).settled.leased)
    (fun _ initial => initial.2) fun _ _ _ leased _ _ taken own => own.same ?_
  exact same_of_step leased taken

theorem executions_local (r index : Nat) : (executions site conditions r index).Local := by
  intro s store event t reached agree admitted taken
  have own := ofUpload_of_reachable reached
  have coherent := (invariant_of_reachable reached.of_narrow).coherent
  have mine := own_of_reachable reached.of_narrow
  refine ⟨conditions.work_blind s store event admitted, ?_⟩
  have step : Processing.step site.deployment { s with objects := store } event = some t := taken
  show ∃ (next : Processing.State) (edit : Edit ObjectRef (Option Bytes)),
    edit.Within (Processed site r index) ∧
      Processing.step site.deployment s event =
        some { next with objects := edit.apply s.objects } ∧
      t = { next with objects := edit.apply store }
  cases event with
  | tick duration =>
      cases step
      exact ⟨{ s with now := s.now + duration }, .keep, trivial, rfl, rfl⟩
  | deliver x payload attemptsMade =>
      simp only [Processing.step] at step ⊢
      split at step
      · obtain ⟨known, moved⟩ := Option.ite_none_right_eq_some.mp step
        cases moved
        exact ⟨s.commit x (s.goto _), .keep, trivial, if_pos known, rfl⟩
      · cases step
  | run x action =>
      obtain ⟨outcome, moved, rfl⟩ := Option.map_eq_some_iff.mp step
      have runs : ∀ run, (s.executions x).run = some run → OfUpload site r index run.media :=
        fun run holds =>
          have same := (coherent x).same run holds
          ⟨same.id.trans own.id, same.postId.trans own.postId, same.profile.trans own.profile⟩
      obtain ⟨next, edit, within, acted, rfl⟩ := follows_act runs agree (mine x) moved
      refine ⟨s.commit x next, edit, within, ?_, rfl⟩
      simp only [Processing.step, acted]
      rfl
  | renew x generation asOf =>
      obtain ⟨past, moved⟩ := Option.ite_none_right_eq_some.mp step
      cases moved
      let renewal := Operation.renew site.deployment.processingLeaseSeconds
      exact ⟨{ s with rows := (renewal.run s.rows generation x asOf).1 }, .keep, trivial,
        if_pos past, rfl⟩
  | crash x =>
      obtain ⟨live, moved⟩ := Option.ite_none_right_eq_some.mp step
      cases moved
      exact ⟨s.commit x (s.goto .crashed), .keep, trivial, if_pos live, rfl⟩
  | retry id dispatchId =>
      obtain ⟨rows, retried, rfl⟩ := Option.map_eq_some_iff.mp step
      have known : Processing.retry s.rows id dispatchId = some rows := retried
      exact ⟨{ s with rows := rows }, .keep, trivial, by simp only [Processing.step, known]; rfl,
        rfl⟩
  | outbox dispatches =>
      cases step
      exact ⟨{ s with rows := { s.rows with dispatches := dispatches } }, .keep, trivial, rfl, rfl⟩

end Executions

end PostsMedia.Traffic
