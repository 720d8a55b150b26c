import PostsMedia.Configuration.Schema
import PostsMedia.Processing.Freshness
import PostsMedia.Processing.Renewals
import PostsMedia.Queues.Runs
import PostsMedia.Validation.Inspection

namespace PostsMedia.Configuration

open Fields

/-- The numbers that the validation of uploads reads. -/
def Upload.limits (upload : Upload) : List ℕ :=
  [upload.maxFilesPerRequest, upload.maxTotalUploadSizeMb, upload.maxImageSizeMb,
    upload.maxAudioSizeMb, upload.maxVideoSizeMb, upload.maxImagePixels, upload.maxMediaStreams,
    upload.maxAudioDurationSeconds, upload.maxVideoDurationSeconds, upload.maxVideoWidth,
    upload.maxVideoHeight]

def limitsOf (configuration : Validation.UploadConfiguration) : List Validation.Limit :=
  [configuration.maxFilesPerRequest, configuration.maxTotalUploadSizeMb,
    configuration.maxImageSizeMb, configuration.maxAudioSizeMb, configuration.maxVideoSizeMb,
    configuration.maxImagePixels, configuration.maxMediaStreams,
    configuration.maxAudioDurationSeconds, configuration.maxVideoDurationSeconds,
    configuration.maxVideoWidth, configuration.maxVideoHeight]

/-- What the services take for granted of their configuration. -/
structure Provides (c : EnvironmentConfiguration) : Prop where
  uploads : ∃ configuration, (limitsOf configuration).map Subtype.val = c.upload.limits
  dispatcher : ∃ settings : Dispatcher.Settings,
    settings.publishConcurrency = c.outbox.publishConcurrency
  attempts : 1 ≤ c.worker.mediaJobAttempts
  leases : ∀ deployment : Processing.Deployment,
    deployment.processingLeaseSeconds = c.worker.processingLeaseSeconds →
      ∀ timing : Renewals.Timing, timing.startup + timing.patience + timing.delay < 1000 →
        (timing.limits deployment c.worker.processingLeaseRenewSeconds).Suffice
  heartbeats : ∀ lateness ≤ 1000,
    WorkerHealth.interval c.worker.heartbeatIntervalSeconds + lateness ≤
      c.worker.heartbeatStaleSeconds * 1000

section Provides

variable {environment : EnvironmentInput} {c : EnvironmentConfiguration}

theorem describes_positives {names : List String} {numbers : List ℕ}
    (described : Describes format (positives names) (numbers.map .number) environment) :
    ∀ n ∈ numbers, 0 < n ∧ n < 2 ^ 53 := by
  induction numbers generalizing names with
  | nil => simp
  | cons n numbers ih =>
      cases names with
      | nil => cases described
      | cons name names =>
          obtain ⟨⟨⟨positive, -, safe⟩, -⟩, rest⟩ := describes_cons.mp described
          intro m member
          rcases List.mem_cons.mp member with rfl | member
          · exact ⟨positive, Nat.lt_of_le_of_lt safe (by decide)⟩
          · exact ih rest m member

theorem upload_positive
    (described : Describes format uploadSchema c.upload.values environment) :
    ∀ n ∈ c.upload.limits, 0 < n ∧ n < 2 ^ 53 := by
  obtain ⟨-, numbers⟩ := describes_cons.mp described
  intro n member
  refine describes_positives numbers n ?_
  simp only [Upload.limits, List.mem_cons, List.not_mem_nil, or_false] at member ⊢
  grind

theorem exists_configuration {upload : Upload}
    (positive : ∀ n ∈ upload.limits, 0 < n ∧ n < 2 ^ 53) :
    ∃ configuration, (limitsOf configuration).map Subtype.val = upload.limits := by
  simp only [Upload.limits, List.forall_mem_cons] at positive
  obtain ⟨files, total, image, audio, video, pixels, streams, sound, film, width, height, -⟩ :=
    positive
  exact ⟨⟨⟨_, files⟩, ⟨_, total⟩, ⟨_, image⟩, ⟨_, audio⟩, ⟨_, video⟩, ⟨_, pixels⟩, ⟨_, streams⟩,
    ⟨_, sound⟩, ⟨_, film⟩, ⟨_, width⟩, ⟨_, height⟩⟩, rfl⟩

theorem provides (described : Describes format schema c.values environment)
    (clear : conflict c = none) : Provides c := by
  obtain ⟨-, -, -, -, upload, -, outbox, worker, -⟩ := describes_values.mp described
  have concurrency := describes_positives outbox c.outbox.publishConcurrency (by simp)
  unfold workerSchema Worker.values at worker
  rw [List.append_assoc] at worker
  obtain ⟨numbers, rest⟩ := (describes_append (by rfl)).mp worker
  obtain ⟨-, periods⟩ := describes_cons.mp rest
  have attempts := describes_positives numbers c.worker.mediaJobAttempts (by simp)
  have renewal := describes_positives numbers c.worker.processingLeaseRenewSeconds (by simp)
  have beats := describes_positives periods c.worker.heartbeatIntervalSeconds (by simp)
  unfold conflict at clear
  split_ifs at clear with renewed stale
  exact {
    uploads := exists_configuration (upload_positive upload)
    dispatcher := ⟨⟨c.outbox.publishConcurrency, concurrency.1⟩, rfl⟩
    attempts := attempts.1
    leases := fun deployment same timing short =>
      Renewals.suffice_of_configured renewal.1 (same ▸ Nat.lt_of_not_le renewed) short
    heartbeats := fun lateness prompt => by
      have interval : c.worker.heartbeatIntervalSeconds + 1 ≤ c.worker.heartbeatStaleSeconds :=
        Nat.lt_of_not_le stale
      have timer := WorkerHealth.interval_le beats.1
      omega }

end Provides

/-- The environment of a configuration. -/
def render (c : EnvironmentConfiguration) : EnvironmentInput := renderAll format schema c.values

/-- The bounds of every variable. -/
def Admissible (c : EnvironmentConfiguration) : Prop :=
  List.Forall₂ (fun entry value => Rule.admits entry.2 value) schema c.values

/-- What an accepted and what a refused environment tell. -/
structure EnvironmentLaw : Prop where
  accepted : ∀ environment c, parseEnvironment environment = .ok c ↔
    Describes format schema c.values environment ∧ conflict c = none
  rejected : ∀ environment error, parseEnvironment environment = .error error ↔
    (∃ before name rule after reason, schema = before ++ (name, rule) :: after ∧
      (∀ entry ∈ before, ∃ value, Holds format entry.2 value (environment entry.1)) ∧
      rule.problem (environment name) = some reason ∧
      error.message = name ++ " " ++ reason) ∨
    ∃ c, Describes format schema c.values environment ∧ conflict c = some error
  restored : ∀ c, parseEnvironment (render c) = .ok c ↔ Admissible c ∧ conflict c = none
  provides : ∀ environment c, parseEnvironment environment = .ok c → Provides c

/-- The configuration is read from exactly the environments that describe it. -/
theorem environment_law : EnvironmentLaw where
  accepted _ _ := parseEnvironment_ok
  rejected environment error := by
    rw [parseEnvironment_error]
    refine or_congr_left ?_
    constructor
    · intro failed
      obtain ⟨⟨name, reason⟩, found, rfl⟩ := Option.map_eq_some_iff.mp failed
      obtain ⟨before, rule, after, shape, clear, problem⟩ :=
        (firstProblem_eq_some_iff format_sound).mp found
      exact ⟨before, name, rule, after, reason, shape, clear, problem, rfl⟩
    · rintro ⟨before, name, rule, after, reason, shape, clear, problem, message⟩
      have found := (firstProblem_eq_some_iff format_sound).mpr
        ⟨before, rule, after, shape, clear, problem⟩
      rw [found]
      cases error
      cases message
      rfl
  restored c := by
    rw [parseEnvironment_ok]
    refine and_congr_left fun _ => ?_
    constructor
    · exact fun described => described.imp fun _ _ holds => holds.1
    · exact describes_renderAll format_sound schema_distinct
  provides environment c accepted := by
    obtain ⟨described, clear⟩ := parseEnvironment_ok.mp accepted
    exact Configuration.provides described clear

end PostsMedia.Configuration
