import PostsMedia.Media.Access
import PostsMedia.Storage.Tenants

namespace PostsMedia.Traffic

open Machine

variable {site : Site}

section Keys

variable {r r' index index' : Nat} {ref : ObjectRef}

theorem toLower_ne_slash {c : Char} (other : c ≠ '/') : c.toLower ≠ '/' := by
  unfold Char.toLower
  split
  · intro same
    have values := congrArg Char.val same
    simp at values
    grind
  · exact other

/-- The column reads no separator into an id. -/
theorem postId_plain (site : Site) (r : Nat) :
    '/' ∉ (uuidColumn (site.intake.postId r)).toList := by
  simp only [uuidColumn, String.toList_ofList, List.mem_map, not_exists, not_and]
  intro c member
  exact toLower_ne_slash fun same => site.intake.postId_plain r (same ▸ member)

/-- The keys of the executions for a media go on with it after a segment of their own. -/
theorem processed_key (mine : Processed site r index ref) :
    (∃ rest, ref.objectKey.toList =
      "processing/".toList ++ (site.intake.mediaUuid r index).toList ++ '/' :: rest) ∨
    ∃ rest, ref.objectKey.toList = "posts/".toList ++ (uuidColumn (site.intake.postId r)).toList ++
      '/' :: ((site.intake.mediaUuid r index).toList ++ '/' :: ("balanced-v1".toList ++ rest)) := by
  obtain ⟨run, own, artifact, rfl | rfl⟩ := mine
  · left
    simp only [Processing.tempRef, StorageBuckets.processingTempKey, own.id, String.toList_append,
      List.append_assoc]
    exact ⟨_, rfl⟩
  · right
    simp only [Processing.finalRef, StorageBuckets.processedAttemptKey, own.id, own.postId,
      own.profile, String.toList_append, List.append_assoc]
    exact ⟨_, rfl⟩

/-- Originals and published objects of one media differ behind its segment. -/
theorem uploaded_apart (uploaded : Uploaded site ref) : ¬ Processed site r index ref := by
  intro mine
  rcases uploaded with ⟨r', file, rfl⟩ | ⟨r', index', file, rfl⟩
  · rcases processed_key mine with ⟨rest, texts⟩ | ⟨rest, texts⟩
    · simp [Promotion.Intake.stagingRef, StorageBuckets.uploadStagingKey] at texts
    · simp [Promotion.Intake.stagingRef, StorageBuckets.uploadStagingKey] at texts
  · rcases processed_key mine with ⟨rest, texts⟩ | ⟨rest, texts⟩
    · simp [Promotion.Intake.originalRef, StorageBuckets.originalKey] at texts
    · have name : "/original.".toList = '/' :: 'o' :: "riginal.".toList := rfl
      simp only [Promotion.Intake.originalRef, StorageBuckets.originalKey, String.toList_append,
        List.append_assoc, List.append_cancel_left_eq, name] at texts
      obtain ⟨-, tails⟩ :=
        Segments.split_inj (site.intake.postId_plain r') (postId_plain site r) texts
      obtain ⟨-, rests⟩ := Segments.split_inj (site.intake.mediaUuid_plain r' index')
        (site.intake.mediaUuid_plain r index) tails
      simp at rests

theorem processed_apart (other : (r, index) ≠ (r', index')) (mine : Processed site r index ref) :
    ¬ Processed site r' index' ref := by
  intro theirs
  suffices site.intake.mediaUuid r index = site.intake.mediaUuid r' index' by
    obtain ⟨rfl, rfl⟩ := site.intake.mediaUuid_injective r index r' index' this
    exact other rfl
  have plain := site.intake.mediaUuid_plain
  apply String.toList_inj.mp
  rcases processed_key mine with ⟨rest, texts⟩ | ⟨rest, texts⟩
  · rcases processed_key theirs with ⟨rest', texts'⟩ | ⟨rest', texts'⟩
    · rw [texts, List.append_assoc, List.append_assoc, List.append_cancel_left_eq] at texts'
      exact (Segments.split_inj (plain r index) (plain r' index') texts').1
    · rw [texts] at texts'
      simp at texts'
  · rcases processed_key theirs with ⟨rest', texts'⟩ | ⟨rest', texts'⟩
    · rw [texts] at texts'
      simp at texts'
    · rw [texts, List.append_assoc, List.append_assoc, List.append_cancel_left_eq] at texts'
      obtain ⟨-, tails⟩ := Segments.split_inj (postId_plain site r) (postId_plain site r') texts'
      exact (Segments.split_inj (plain r index) (plain r' index') tails).1

end Keys

theorem tenants_apart (site : Site) (conditions : Conditions) :
    Apart (tenant site conditions) := by
  intro i j other ref mine
  cases i with
  | uploads =>
      cases j with
      | uploads => exact absurd rfl other
      | media r index => exact uploaded_apart mine
  | media r index =>
      cases j with
      | uploads => exact fun theirs => uploaded_apart theirs mine
      | media r' index' =>
          refine processed_apart (fun same => other ?_) mine
          cases same
          rfl

theorem tenants_local (site : Site) (conditions : Conditions) (party : Party) :
    (tenant site conditions party).Local :=
  match party with
  | .uploads => uploads_local
  | .media r index => executions_local r index

abbrev State := Shared Party.State ObjectRef (Option Bytes)

def State.requests (s : State) : Promotion.State := s.tenants .uploads

def State.work (s : State) (r index : Nat) : Processing.State := s.tenants (.media r index)

/-- The state is reached by an interleaving in which every party obeys the conditions. -/
def Reached (site : Site) (conditions : Conditions) (s : State) : Prop :=
  (shared (tenant site conditions)).Reachable (eachAdmits (tenant site conditions)) s

section Law

variable {s : State} {r index : Nat}

theorem originals_match (reached : Reached site (.exclusive site) s) {media : Media}
    (member : media ∈ s.requests.tables.media) :
    ∃ r index file, Promotion.Matches site.intake s.objects r index media file := by
  obtain ⟨a, alone⟩ :=
    alone_of_reachable (tenants_apart site _) (tenants_local site _) reached .uploads
  have seen : { a with objects := s.objects } = { s.requests with objects := s.objects } :=
    alone.seen
  obtain ⟨-, tables, -⟩ := Promotion.State.mk.inj seen
  obtain ⟨r, index, file, -, holds⟩ :=
    (Promotion.sound_of_reachable alone.reached).rows media (tables ▸ member)
  refine ⟨r, index, file, holds.submitted, holds.id, holds.original, ?_, holds.size,
    holds.checksum⟩
  have stored := holds.stored
  rw [holds.original] at stored ⊢
  rw [← stored]
  exact alone.agree _ (promoted index file)

theorem variants_intact (reached : Reached site (.exclusive site) s)
    (done : (s.work r index).rows.media.processingStatus = .completed) {variant : MediaVariant}
    (member : variant ∈ (s.work r index).rows.variants) :
    ∃ publication ∈ (s.work r index).publications, ∃ artifact ∈ publication.upload.artifacts,
      ∃ content, Processing.Intact site.deployment s.objects publication.upload artifact variant
        content := by
  obtain ⟨a, alone⟩ :=
    alone_of_reachable (tenants_apart site _) (tenants_local site _) reached (.media r index)
  have seen : { a with objects := s.objects } = { s.work r index with objects := s.objects } :=
    alone.seen
  obtain ⟨-, rows, -, -, publications⟩ := Processing.State.mk.inj seen
  have own := ofUpload_of_reachable alone.reached
  have earlier := alone.reached.of_narrow
  rw [← rows] at done member
  rw [← publications]
  have settled := (Processing.invariant_of_reachable earlier).settled
  obtain ⟨publication, only, by'⟩ := settled.published done
  obtain ⟨artifact, present, content, file, rfl⟩ := Processing.variantRows_mem by'.variants member
  have named : publication ∈ a.publications := by simp [only]
  obtain ⟨bytes, file', stored⟩ :=
    (Processing.kept_of_reachable earlier).held publication named artifact present
  rw [file] at file'
  cases file'
  refine ⟨publication, named, artifact, present, content, file, rfl, ?_, rfl, rfl⟩
  rw [← stored]
  refine alone.agree _ (published ⟨?_, ?_, ?_⟩ artifact)
  · exact by'.same.id.trans own.id
  · exact by'.same.postId.trans own.postId
  · exact by'.same.profile.trans own.profile

/-- Beside the others the rows of a media keep their law. -/
theorem completionLaw_of_reached (reached : Reached site (.exclusive site) s) (r index : Nat) :
    Processing.CompletionLaw site.deployment (s.work r index) := by
  obtain ⟨a, alone⟩ :=
    alone_of_reachable (tenants_apart site _) (tenants_local site _) reached (.media r index)
  have seen : { a with objects := s.objects } = { s.work r index with objects := s.objects } :=
    alone.seen
  obtain ⟨-, rows, -, -, publications⟩ := Processing.State.mk.inj seen
  have law := (Processing.invariant_of_reachable alone.reached.of_narrow).completionLaw
  constructor
  · rw [← rows]
    exact law.leased
  · rw [← rows]
    exact law.unpublished
  · rw [← rows, ← publications]
    exact law.published

theorem variantTypes_distinct (reached : Reached site (.exclusive site) s) (r index : Nat) :
    ((s.work r index).rows.variants.map (·.variantType)).Nodup := by
  have law := completionLaw_of_reached reached r index
  by_cases done : (s.work r index).rows.media.processingStatus = .completed
  · obtain ⟨publication, -, -, -, -, distinct, -⟩ := law.published done
    exact distinct
  · simp [law.unpublished done]

/-- Every variant row refers to a stored object. -/
theorem variant_stored (reached : Reached site (.exclusive site) s) {variant : MediaVariant}
    (member : variant ∈ (s.work r index).rows.variants) :
    (s.objects ⟨variant.bucket, variant.objectKey⟩).isSome = true := by
  have done : (s.work r index).rows.media.processingStatus = .completed := by
    by_contra open'
    rw [(completionLaw_of_reached reached r index).unpublished open'] at member
    cases member
  obtain ⟨publication, -, artifact, -, content, intact⟩ := variants_intact reached done member
  rw [intact.stored]
  rfl

/-- A link that was signed for a stored object. -/
def Opens (objects : ObjectRef → Option Bytes) (presignedGet : ObjectRef → Nat → String)
    (link : String) : Prop :=
  ∃ ref seconds, link = presignedGet ref seconds ∧ (objects ref).isSome = true

/-- What the parties may rely on although they share one storage. -/
structure TrafficLaw (site : Site) : Prop where
  alone : ∀ conditions s, Reached site conditions s →
    ∀ party, ∃ a, Alone (tenant site conditions) s party a
  untouched : ∀ conditions s event t, Reached site conditions s →
    eachAdmits (tenant site conditions) s event →
      (shared (tenant site conditions)).step s event = some t → ∀ party, party ≠ event.1 →
        ∀ ref, (tenant site conditions party).footprint ref → t.objects ref = s.objects ref
  originals : ∀ s, Reached site (.exclusive site) s → ∀ media ∈ s.requests.tables.media,
    ∃ r index file, Promotion.Matches site.intake s.objects r index media file
  variants : ∀ s, Reached site (.exclusive site) s → ∀ r index,
    (s.work r index).rows.media.processingStatus = .completed →
      ∀ variant ∈ (s.work r index).rows.variants, ∃ publication ∈ (s.work r index).publications,
        ∃ artifact ∈ publication.upload.artifacts, ∃ content,
          Processing.Intact site.deployment s.objects publication.upload artifact variant content
  access : ∀ s, Reached site (.exclusive site) s → ∀ media ∈ s.requests.tables.media, ∃ r index,
    media.id = site.intake.mediaUuid r index ∧ ∀ presignedGet,
      let response := MediaService.access presignedGet media (s.work r index).rows.variants
      Opens s.objects presignedGet response.original ∧
        (∀ link ∈ response.variants, Opens s.objects presignedGet link.2) ∧
        response.variants.map (·.1) =
          (s.work r index).rows.variants.map (·.variantType.text)

theorem traffic_law (site : Site) : TrafficLaw site where
  alone _ _ reached := alone_of_reachable (tenants_apart site _) (tenants_local site _) reached
  untouched _ _ _ _ reached admitted taken _ other _ member :=
    untouched_of_reachable (tenants_apart site _) (tenants_local site _) reached admitted taken
      other member
  originals _ reached _ member := originals_match reached member
  variants _ reached _ _ done _ member := variants_intact reached done member
  access s reached media member := by
    obtain ⟨r, index, file, holds⟩ := originals_match reached member
    refine ⟨r, index, holds.id, fun presignedGet => ⟨⟨_, 900, rfl, ?_⟩, ?_, ?_⟩⟩
    · rw [holds.stored]
      rfl
    · rw [MediaService.access_variants (variantTypes_distinct reached r index)]
      intro link signed
      obtain ⟨variant, present, rfl⟩ := List.mem_map.mp signed
      exact ⟨⟨variant.bucket, variant.objectKey⟩, 900, rfl, variant_stored reached present⟩
    · rw [MediaService.access_variants (variantTypes_distinct reached r index), List.map_map]
      rfl

end Law

def photoSite : Site := ⟨Promotion.imagePosts none, Processing.sampleDeployment⟩

/-- The row that the upload of a file creates. -/
def photoInput (r index : Nat) : CreateMediaWithDispatchInput :=
  { sampleInput with
    id := photoSite.intake.mediaUuid r index
    postId := uuidColumn (photoSite.intake.postId r) }

def photoStart (r index : Nat) : Processing.State :=
  { Processing.recordingStart with
    rows :=
      { media := (createWithDispatch (photoInput r index)).1
        variants := []
        attempts := []
        dispatches := [(createWithDispatch (photoInput r index)).2] } }

def quietStart : State where
  objects _ := none
  tenants
    | .uploads => Promotion.emptyStart
    | .media r index => photoStart r index

/-- Both clients commit their images. -/
def bothUploads : List Promotion.Event :=
  Promotion.mixedUploads ++ [.copy 1 .ok, .unstage 1 true, .commit 1 .ok]

def uploaded : Promotion.State :=
  ((Promotion.machine photoSite.intake).execute Promotion.Faultless Promotion.emptyStart
    bothUploads).getD Promotion.emptyStart

def photoPayload : MediaJobPayloadV1 :=
  { Processing.recordingPayload with mediaId := "b", mediaType := .image }

/-- A worker publishes the optimized image and the thumbnail of the first image. -/
def photoEvents : List Processing.Event :=
  .deliver 0 photoPayload 0 ::
    [.claim .ok, .read true, .createAttempt .ok, .createWorkspace true, .downloadAndVerify none,
      .handle (.ok (.image 1 1 1 1, fun _ => some [1])), .put .ok "", .check none, .copy .ok "",
      .verify none, .put .ok "", .check none, .copy .ok "", .verify none, .publish .ok "",
      .remove true, .remove true, .remove true, .complete .ok ""].map (Processing.Event.run 0)

def working : Processing.State := { photoStart 0 0 with objects := uploaded.objects }

def processed : Processing.State :=
  ((Processing.machine photoSite.deployment).execute Processing.OneAttempt working
    photoEvents).getD working

/-- Beside two uploads a worker completes the first image. -/
theorem traffic_law_photo : ∃ s, Reached photoSite (.exclusive photoSite) s ∧
    s.requests.tables.media.length = 2 ∧
      (s.work 0 0).rows.media.processingStatus = .completed ∧
      (s.work 0 0).rows.variants.length = 2 ∧
      ∀ variant ∈ (s.work 0 0).rows.variants, ∃ publication ∈ (s.work 0 0).publications,
        ∃ artifact ∈ publication.upload.artifacts, ∃ content, Processing.Intact
          Processing.sampleDeployment s.objects publication.upload artifact variant content := by
  have requests : (Promotion.machine photoSite.intake).execute Promotion.Faultless
      Promotion.emptyStart bothUploads = some uploaded := rfl
  have work : (Processing.machine photoSite.deployment).execute Processing.OneAttempt working
      photoEvents = some processed := rfl
  have uploads : (tenant photoSite (.exclusive photoSite) .uploads).machine.Path
      (tenant photoSite (.exclusive photoSite) .uploads).admits Promotion.emptyStart uploaded :=
    (path_of_execute _ requests).mono Promotion.exclusiveStaging_of_faultless
  obtain ⟨s, first, seen, kept⟩ :=
    @path_of_tenant _ _ _ _ _ (tenant photoSite (.exclusive photoSite)) quietStart _ .uploads
      uploaded uploads
  have view : s.view (tenant photoSite (.exclusive photoSite)) (.media 0 0) = working := by
    have objects : s.objects = uploaded.objects := congrArg Promotion.State.objects seen
    have own : s.tenants (.media 0 0) = photoStart 0 0 := kept (.media 0 0) (by decide)
    simp only [Shared.view, objects, own]
    rfl
  have executes : (tenant photoSite (.exclusive photoSite) (.media 0 0)).machine.Path
      (tenant photoSite (.exclusive photoSite) (.media 0 0)).admits working processed :=
    ((path_of_execute _ work).mono Processing.OneAttempt.exclusive).narrow
  obtain ⟨t, second, done, rest⟩ :=
    @path_of_tenant _ _ _ _ _ (tenant photoSite (.exclusive photoSite)) s _ (.media 0 0)
      processed (view.symm ▸ executes)
  have reached : Reached photoSite (.exclusive photoSite) t := by
    refine ⟨quietStart, fun party => ?_, first.trans second⟩
    cases party with
    | uploads => exact Promotion.emptyStart_initial _
    | media r index =>
        exact ⟨⟨createWithDispatch_fresh _, rfl, rfl, fun _ => rfl, rfl⟩, rfl, rfl, rfl⟩
  have tables : (State.requests t).tables = uploaded.tables := by
    have same : t.tenants .uploads = s.tenants .uploads := rest .uploads (by decide)
    have before := congrArg Promotion.State.tables seen
    exact (congrArg Promotion.State.tables same).trans before
  have rows : (State.work t 0 0).rows = processed.rows := by
    have after := congrArg Processing.State.rows done
    exact after
  have completed : (State.work t 0 0).rows.media.processingStatus = .completed := by
    rw [rows]
    decide +kernel
  refine ⟨t, reached, ?_, completed, ?_, ?_⟩
  · rw [tables]
    decide +kernel
  · rw [rows]
    decide +kernel
  · exact (traffic_law photoSite).variants t reached 0 0 completed

end PostsMedia.Traffic
