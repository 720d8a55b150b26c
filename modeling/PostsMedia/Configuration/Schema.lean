import PostsMedia.Configuration.Environment

namespace PostsMedia.Configuration

open Fields

/-- What a variable may hold. -/
inductive Rule
  | string
  | integer (options : IntegerOptions)
  | boolean
  | oneOf (supported : List String)

inductive Setting
  | text (value : Text)
  | number (value : ℕ)
  | flag (value : Bool)

/-- The setting of an option. -/
def word (literal : String) : Setting := .text (Text.ofString literal)

def Rule.admits : Rule → Setting → Prop
  | .string, .text value => value ≠ [] ∧ value.trim = value
  | .integer options, .number n =>
      options.min ≤ n ∧ (∀ max ∈ options.max, n ≤ max) ∧ n ≤ maxSafeInteger
  | .boolean, .flag _ => True
  | .oneOf supported, .text value =>
      (value ≠ [] ∧ value.trim = value) ∧ value ∈ supported.map Text.ofString
  | _, _ => False

/-- Spaces around a value and the case of a flag do not matter. -/
def Setting.written : Setting → Text → Prop
  | .text value, raw => raw.trim = value
  | .number n, raw => raw.trim = Text.decimal n
  | .flag value, raw => raw.trim.map Text.lowerUnit = Text.ofString (toString value)

def Setting.render : Setting → Text
  | .text value => value
  | .number n => Text.decimal n
  | .flag value => Text.ofString (toString value)

/-- The reason to refuse a value that is set. -/
def Rule.misread (value : Text) : Rule → Option String
  | .string => none
  | .integer options =>
      if Text.isDecimal value = false then some "must be a base-10 integer"
      else
        let n := (Text.digitsValue 10 value).getD 0
        if maxSafeInteger < n ∨ n < options.min then some s!"must be at least {options.min}"
        else (options.max.filter (· < n)).map fun max => s!"must be at most {max}"
  | .boolean =>
      if ∃ flag : Bool, value.map Text.lowerUnit = Text.ofString (toString flag) then none
      else some "must be either true or false"
  | .oneOf supported =>
      if value ∈ supported.map Text.ofString then none
      else some ("must be one of: " ++ ", ".intercalate supported)

/-- The value of a variable that is set to one. -/
def present (field : Option Text) : Option Text :=
  (field.map Text.trim).filter fun value => !value.isEmpty

def Rule.problem (rule : Rule) (field : Option Text) : Option String :=
  match present field with
  | none => some "must be set"
  | some value => rule.misread value

def format : Format Rule Setting Text String where
  admits := Rule.admits
  written := Setting.written
  render := Setting.render
  problem := Rule.problem

/-- The error that names a variable. -/
def failure (problem : String × String) : EnvironmentValidationError where
  message := problem.1 ++ " " ++ problem.2

section Readers

variable {environment : EnvironmentInput} {name : String}

theorem present_eq_some_iff {field : Option Text} {value : Text} : present field = some value ↔
    value ≠ [] ∧ ∃ raw, field = some raw ∧ raw.trim = value := by
  simp only [present, Option.filter_eq_some_iff, Option.map_eq_some_iff, Bool.not_eq_true',
    List.isEmpty_eq_false_iff]
  exact and_comm

theorem requiredString_eq : requiredString environment name =
    (present (environment name)).elim (fail name "must be set") .ok := by
  unfold requiredString present
  cases (environment name).map Text.trim with
  | none => rfl
  | some value => cases value <;> rfl

/-- A reader that looks at the value of a variable. -/
theorem requiredString_bind_ok {α : Type} {next : Text → Except EnvironmentValidationError α}
    {result : α} : (requiredString environment name >>= next) = .ok result ↔
      ∃ value, present (environment name) = some value ∧ next value = .ok result := by
  rw [bind_eq_ok_iff, requiredString_eq]
  cases present (environment name) <;> simp [fail]

theorem requiredString_bind_errors {α : Type} {rule : Rule}
    {next : Text → Except EnvironmentValidationError α}
    (misread : ∀ value, errors (next value) =
      (rule.misread value).map fun reason => failure (name, reason)) :
    errors (requiredString environment name >>= next) =
      (rule.problem (environment name)).map fun reason => failure (name, reason) := by
  rw [requiredString_eq, Rule.problem]
  cases present (environment name) with
  | none => rfl
  | some value => exact misread value

theorem trim_trim (text : Text) : text.trim.trim = text.trim := by
  obtain ⟨rest, whole⟩ := List.rdropWhile_prefix Text.isWhiteSpace
    (text.dropWhile Text.isWhiteSpace)
  have front : text.trim.dropWhile Text.isWhiteSpace = text.trim := by
    cases shape : text.trim with
    | nil => rfl
    | cons head tail =>
        have again := List.dropWhile_idempotent Text.isWhiteSpace text
        rw [← whole, ← Text.trim, shape, List.cons_append, List.dropWhile_eq_self_iff] at again
        have dark : Text.isWhiteSpace head = false := by simpa using again
        simp [dark]
  rw [Text.trim, front]
  exact List.rdropWhile_idempotent ..

theorem requiredString_ok {value : Text} : requiredString environment name = .ok value ↔
    Holds format .string (.text value) (environment name) := by
  have read : requiredString environment name = requiredString environment name >>= .ok :=
    (bind_pure _).symm
  rw [read, requiredString_bind_ok]
  constructor
  · rintro ⟨_, set, ⟨⟩⟩
    obtain ⟨nonempty, raw, field, trimmed⟩ := present_eq_some_iff.mp set
    exact ⟨⟨nonempty, trimmed ▸ trim_trim raw⟩, raw, field, trimmed⟩
  · rintro ⟨⟨nonempty, -⟩, raw, field, trimmed⟩
    exact ⟨value, present_eq_some_iff.mpr ⟨nonempty, raw, field, trimmed⟩, rfl⟩

theorem requiredString_errors : errors (requiredString environment name) =
    (Rule.string.problem (environment name)).map fun reason => failure (name, reason) := by
  rw [← bind_pure (requiredString environment name)]
  exact requiredString_bind_errors fun _ => rfl

/-- What a numeral is read as. -/
def readNatural (name : String) (options : IntegerOptions) (n : ℕ) :
    Except EnvironmentValidationError ℕ :=
  if maxSafeInteger < n ∨ n < options.min then fail name s!"must be at least {options.min}"
  else (options.max.filter (· < n)).elim (.ok n) fun max => fail name s!"must be at most {max}"

theorem integer_eq (options : IntegerOptions) : integer environment name options =
    requiredString environment name >>= fun value =>
      if Text.isDecimal value = false then fail name "must be a base-10 integer"
      else readNatural name options ((Text.digitsValue 10 value).getD 0) := by
  unfold integer
  congr 1
  funext value
  by_cases numeral : Text.isDecimal value = true
  · obtain ⟨n, rfl⟩ := Text.isDecimal_iff.mp numeral
    simp only [numeral, Bool.not_true, Bool.false_eq_true, if_false, reduceCtorEq,
      stringToNumber_decimal, Text.digitsValue_decimal, Option.getD_some, readNatural]
    by_cases safe : n ≤ maxSafeInteger
    · have read : naturalOf (.finite n) = n := rfl
      have small : ¬ maxSafeInteger < n := Nat.not_lt.mpr safe
      simp only [ofRat_within safe, isSafeInteger_natCast safe, Bool.not_true, Bool.false_or,
        Number.lt, Nat.cast_lt, decide_eq_true_eq, read, small, false_or]
      split
      · rfl
      · cases options.max with
        | none => rfl
        | some max => by_cases beyond : max < n <;> simp [beyond, Option.filter_some]
    · have large : maxSafeInteger < n := Nat.lt_of_not_le safe
      simp [ofRat_beyond large, large]
  · simp [numeral]

theorem readNatural_ok {options : IntegerOptions} {n m : ℕ} :
    readNatural name options n = .ok m ↔
      n = m ∧ options.min ≤ n ∧ (∀ max ∈ options.max, n ≤ max) ∧ n ≤ maxSafeInteger := by
  unfold readNatural
  split
  · simp [fail]
    omega
  · cases options.max with
    | none => simp; omega
    | some max =>
        by_cases beyond : max < n
        · simp [beyond, Option.filter_some, fail]
        · simp [beyond, Option.filter_some]
          omega

theorem integer_ok {options : IntegerOptions} {n : ℕ} :
    integer environment name options = .ok n ↔
      Holds format (.integer options) (.number n) (environment name) := by
  rw [integer_eq, requiredString_bind_ok]
  constructor
  · rintro ⟨value, set, read⟩
    obtain ⟨-, raw, field, trimmed⟩ := present_eq_some_iff.mp set
    split_ifs at read with numeral
    · cases read
    obtain ⟨m, rfl⟩ := Text.isDecimal_iff.mp (by simpa using numeral)
    rw [Text.digitsValue_decimal, Option.getD_some, readNatural_ok] at read
    obtain ⟨rfl, bounds⟩ := read
    exact ⟨bounds, raw, field, trimmed⟩
  · rintro ⟨bounds, raw, field, trimmed⟩
    have numeral : Text.isDecimal (Text.decimal n) = true := Text.isDecimal_iff.mpr ⟨n, rfl⟩
    refine ⟨_, present_eq_some_iff.mpr ⟨Text.decimal_ne_nil n, raw, field, trimmed⟩, ?_⟩
    rw [if_neg (by simp [numeral]), Text.digitsValue_decimal, Option.getD_some, readNatural_ok]
    exact ⟨rfl, bounds⟩

theorem integer_errors {options : IntegerOptions} : errors (integer environment name options) =
    ((Rule.integer options).problem (environment name)).map fun reason =>
      failure (name, reason) := by
  rw [integer_eq]
  refine requiredString_bind_errors fun value => ?_
  simp only [Rule.misread, readNatural]
  split_ifs
  · rfl
  · rfl
  · cases options.max.filter (· < (Text.digitsValue 10 value).getD 0) <;> rfl

theorem boolean_eq : boolean environment name = requiredString environment name >>= fun value =>
    if value.map Text.lowerUnit = Text.ofString (toString true) then .ok true
    else if value.map Text.lowerUnit = Text.ofString (toString false) then .ok false
    else fail name "must be either true or false" := rfl

theorem boolean_ok {flag : Bool} : boolean environment name = .ok flag ↔
    Holds format .boolean (.flag flag) (environment name) := by
  rw [boolean_eq, requiredString_bind_ok]
  constructor
  · rintro ⟨value, set, read⟩
    obtain ⟨-, raw, field, rfl⟩ := present_eq_some_iff.mp set
    split_ifs at read with yes no
    · cases read
      exact ⟨trivial, raw, field, yes⟩
    · cases read
      exact ⟨trivial, raw, field, no⟩
    · cases read
  · rintro ⟨-, raw, field, written⟩
    have lower : raw.trim.map Text.lowerUnit = Text.ofString (toString flag) := written
    have nonempty : raw.trim ≠ [] := by
      intro empty
      rw [empty] at lower
      cases flag <;> cases lower
    refine ⟨raw.trim, present_eq_some_iff.mpr ⟨nonempty, raw, field, rfl⟩, ?_⟩
    rw [lower]
    cases flag <;> rfl

theorem boolean_errors : errors (boolean environment name) =
    (Rule.boolean.problem (environment name)).map fun reason => failure (name, reason) := by
  rw [boolean_eq]
  refine requiredString_bind_errors fun value => ?_
  simp only [Rule.misread, Bool.exists_bool]
  split_ifs with yes no either either' <;> first | rfl | grind

section Options

variable {T : Type} {literal : T → String} {supported : List T}

theorem oneOf_ok {option : T}
    (distinct : ∀ x y, Text.ofString (literal x) = Text.ofString (literal y) → x = y)
    (known : option ∈ supported) : oneOf literal environment name supported = .ok option ↔
      Holds format (.oneOf (supported.map literal)) (word (literal option))
        (environment name) := by
  unfold oneOf
  rw [requiredString_bind_ok]
  constructor
  · rintro ⟨value, set, read⟩
    obtain ⟨nonempty, raw, field, rfl⟩ := present_eq_some_iff.mp set
    split at read
    · rename_i found
      cases read
      have same : Text.ofString (literal option) = raw.trim := by
        simpa using List.find?_some found
      refine ⟨⟨⟨same ▸ nonempty, same ▸ trim_trim raw⟩, ?_⟩, raw, field, same.symm⟩
      rw [List.map_map]
      exact List.mem_map_of_mem known
    · cases read
  · rintro ⟨⟨⟨nonempty, -⟩, -⟩, raw, field, written⟩
    refine ⟨_, present_eq_some_iff.mpr ⟨nonempty, raw, field, written⟩, ?_⟩
    have found : supported.find? (fun candidate =>
        decide (Text.ofString (literal candidate) = Text.ofString (literal option))) =
          some option := by
      cases found : supported.find? _ with
      | none => simpa using List.find?_eq_none.mp found option known
      | some x => rw [distinct x option (by simpa using List.find?_some found)]
    rw [found]
    rfl

theorem oneOf_errors : errors (oneOf literal environment name supported) =
    ((Rule.oneOf (supported.map literal)).problem (environment name)).map fun reason =>
      failure (name, reason) := by
  refine requiredString_bind_errors fun value => ?_
  simp only [Rule.misread]
  cases found : supported.find? _ with
  | none =>
      have unknown : value ∉ (supported.map literal).map Text.ofString := by
        simpa [eq_comm] using List.find?_eq_none.mp found
      rw [if_neg unknown]
      rfl
  | some option =>
      have same : Text.ofString (literal option) = value := by simpa using List.find?_some found
      have known : value ∈ (supported.map literal).map Text.ofString := by
        rw [List.map_map]
        exact List.mem_map.mpr ⟨option, List.mem_of_find?_eq_some found, same⟩
      rw [if_pos known]
      rfl

end Options

end Readers

theorem written_render {rule : Rule} {value : Setting} (admits : rule.admits value) :
    value.written value.render := by
  cases rule <;> cases value <;> try cases admits
  case string.text nonempty trimmed => exact trimmed
  case integer.number => exact Text.trim_decimal _
  case boolean.flag flag => cases flag <;> rfl
  case oneOf.text trimmed known => exact trimmed.2

/-- A reader of a rule decides whether a variable holds an admitted value. -/
theorem problem_eq_none_of_reader {α : Type} {rule : Rule} {field : Option Text}
    {read : Except EnvironmentValidationError α} {setting : α → Setting}
    (first : errors read = (rule.problem field).map fun reason => failure ("", reason))
    (reads : ∀ value, read = .ok value ↔ Holds format rule (setting value) field)
    (only : ∀ value, rule.admits value → ∃ own, value = setting own) :
    rule.problem field = none ↔ ∃ value, Holds format rule value field := by
  have clear : rule.problem field = none ↔ errors read = none := by
    rw [first, Option.map_eq_none_iff]
  rw [clear]
  constructor
  · intro none
    cases result : read with
    | error error =>
        rw [result] at none
        cases none
    | ok value => exact ⟨_, (reads value).mp result⟩
  · rintro ⟨value, holds⟩
    obtain ⟨own, rfl⟩ := only value holds.1
    rw [(reads own).mpr holds]
    rfl

theorem problem_oneOf_eq_none_iff {supported : List String} {field : Option Text} :
    (Rule.oneOf supported).problem field = none ↔
      ∃ value, Holds format (.oneOf supported) value field := by
  constructor
  · intro clear
    unfold Rule.problem at clear
    split at clear
    · cases clear
    · rename_i value set
      obtain ⟨nonempty, raw, here, trimmed⟩ := present_eq_some_iff.mp set
      simp only [Rule.misread] at clear
      split_ifs at clear with known
      exact ⟨.text value, ⟨⟨nonempty, trimmed ▸ trim_trim raw⟩, known⟩, raw, here, trimmed⟩
  · rintro ⟨value, admits, raw, here, written⟩
    cases value
    case text value =>
      obtain ⟨⟨nonempty, -⟩, known⟩ := admits
      have set : present field = some value :=
        present_eq_some_iff.mpr ⟨nonempty, raw, here, written⟩
      rw [Rule.problem, set]
      exact if_pos known
    all_goals cases admits

theorem problem_eq_none_iff (rule : Rule) (field : Option Text) : rule.problem field = none ↔
    ∃ value, Holds format rule value field := by
  cases rule with
  | string =>
      refine problem_eq_none_of_reader (@requiredString_errors (fun _ => field) "")
        (fun _ => requiredString_ok) fun value admits => ?_
      cases value <;> first | exact ⟨_, rfl⟩ | cases admits
  | integer options =>
      refine problem_eq_none_of_reader (@integer_errors (fun _ => field) "" options)
        (fun _ => integer_ok) fun value admits => ?_
      cases value <;> first | exact ⟨_, rfl⟩ | cases admits
  | boolean =>
      refine problem_eq_none_of_reader (@boolean_errors (fun _ => field) "")
        (fun _ => boolean_ok) fun value admits => ?_
      cases value <;> first | exact ⟨_, rfl⟩ | cases admits
  | oneOf supported => exact problem_oneOf_eq_none_iff

theorem format_sound : format.Sound where
  written_render _ _ := written_render
  problem_eq_none := problem_eq_none_iff

section Sections

abbrev Schema := List (String × Rule)

def strings (names : List String) : Schema := names.map (·, .string)

def positives (names : List String) : Schema := names.map (·, .integer { min := 1 })

def portRule : Rule := .integer { min := 1, max := some 65535 }

def appSchema : Schema :=
  [("NODE_ENV", .oneOf ["development", "test", "production"]),
    ("PORT", portRule),
    ("API_PREFIX", .string),
    ("LOG_LEVEL", .oneOf ["debug", "info", "warn", "error"])]

def App.values (c : App) : List Setting :=
  [word (nodeEnvironmentName c.nodeEnvironment), .number c.port, .text c.apiPrefix,
    word c.logLevel.name]

def databaseSchema : Schema := strings ["DATABASE_URL"]

def Database.values (c : Database) : List Setting := [.text c.url]

def redisSchema : Schema := [("REDIS_HOST", .string), ("REDIS_PORT", portRule)]

def Redis.values (c : Redis) : List Setting := [.text c.host, .number c.port]

def storageSchema : Schema :=
  [("MINIO_ENDPOINT", .string), ("MINIO_PORT", portRule), ("MINIO_USE_SSL", .boolean)] ++
    strings ["MINIO_ACCESS_KEY", "MINIO_SECRET_KEY", "MINIO_ORIGINALS_BUCKET",
      "MINIO_PROCESSED_BUCKET", "MINIO_TEMP_BUCKET"] ++
    positives ["MINIO_PRESIGNED_URL_TTL_SECONDS"]

def Storage.values (c : Storage) : List Setting :=
  [.text c.endpoint, .number c.port, .flag c.useSsl, .text c.accessKey, .text c.secretKey,
    .text c.originalsBucket, .text c.processedBucket, .text c.temporaryBucket,
    .number c.presignedUrlTtlSeconds]

def uploadSchema : Schema :=
  strings ["UPLOAD_TEMP_ROOT"] ++
    positives ["UPLOAD_TEMP_MAX_AGE_MINUTES", "MAX_FILES_PER_REQUEST",
      "MAX_TOTAL_UPLOAD_SIZE_MB", "MAX_IMAGE_SIZE_MB", "MAX_AUDIO_SIZE_MB", "MAX_VIDEO_SIZE_MB",
      "MAX_IMAGE_PIXELS", "MAX_AUDIO_DURATION_SECONDS", "MAX_VIDEO_DURATION_SECONDS",
      "MAX_VIDEO_WIDTH", "MAX_VIDEO_HEIGHT", "MAX_MEDIA_STREAMS", "MEDIA_PROBE_TIMEOUT_MS"]

def Upload.values (c : Upload) : List Setting :=
  .text c.temporaryRoot ::
    [c.temporaryMaxAgeMinutes, c.maxFilesPerRequest, c.maxTotalUploadSizeMb, c.maxImageSizeMb,
      c.maxAudioSizeMb, c.maxVideoSizeMb, c.maxImagePixels, c.maxAudioDurationSeconds,
      c.maxVideoDurationSeconds, c.maxVideoWidth, c.maxVideoHeight, c.maxMediaStreams,
      c.mediaProbeTimeoutMs].map .number

def idempotencySchema : Schema := positives ["IDEMPOTENCY_TTL_HOURS", "IDEMPOTENCY_LEASE_SECONDS"]

def Idempotency.values (c : Idempotency) : List Setting :=
  [c.ttlHours, c.leaseSeconds].map .number

def outboxSchema : Schema :=
  positives ["OUTBOX_POLL_INTERVAL_MS", "OUTBOX_BATCH_SIZE", "OUTBOX_PUBLISH_CONCURRENCY",
    "OUTBOX_LEASE_SECONDS", "OUTBOX_MAX_RETRY_DELAY_SECONDS", "OUTBOX_PUBLISHED_RETENTION_DAYS"]

def Outbox.values (c : Outbox) : List Setting :=
  [c.pollIntervalMs, c.batchSize, c.publishConcurrency, c.leaseSeconds, c.maxRetryDelaySeconds,
    c.publishedRetentionDays].map .number

def workerSchema : Schema :=
  positives ["IMAGE_WORKER_CONCURRENCY", "AUDIO_WORKER_CONCURRENCY", "VIDEO_WORKER_CONCURRENCY",
    "MEDIA_JOB_ATTEMPTS", "MEDIA_JOB_BACKOFF_MS", "PROCESSING_LEASE_SECONDS",
    "PROCESSING_LEASE_RENEW_SECONDS"] ++
    strings ["WORKER_TEMP_ROOT"] ++
    positives ["WORKER_HEARTBEAT_INTERVAL_SECONDS", "WORKER_HEARTBEAT_STALE_SECONDS"]

def Worker.values (c : Worker) : List Setting :=
  [c.imageConcurrency, c.audioConcurrency, c.videoConcurrency, c.mediaJobAttempts,
    c.mediaJobBackoffMs, c.processingLeaseSeconds, c.processingLeaseRenewSeconds].map .number ++
    .text c.temporaryRoot :: [c.heartbeatIntervalSeconds, c.heartbeatStaleSeconds].map .number

def processingSchema : Schema :=
  ("PROCESSING_PROFILE", .oneOf ["balanced-v1"]) ::
    positives ["IMAGE_PROCESSING_TIMEOUT_MS", "AUDIO_PROCESSING_TIMEOUT_MS",
      "VIDEO_PROCESSING_TIMEOUT_MS"] ++
    ("IMAGE_WEBP_QUALITY", .integer { min := 1, max := some 100 }) ::
    positives ["IMAGE_MAX_WIDTH", "IMAGE_MAX_HEIGHT", "IMAGE_THUMBNAIL_SIZE",
      "AUDIO_MP3_BITRATE_KBPS", "AUDIO_MAX_SAMPLE_RATE", "VIDEO_MAX_FPS"] ++
    ("VIDEO_H264_CRF", .integer { min := 0, max := some 51 }) ::
    ("VIDEO_H264_PRESET", .oneOf ["veryfast"]) ::
    positives ["VIDEO_AUDIO_BITRATE_KBPS"]

def Processing.values (c : Processing) : List Setting :=
  word c.profile.name ::
    [c.imageTimeoutMs, c.audioTimeoutMs, c.videoTimeoutMs, c.imageWebpQuality, c.imageMaxWidth,
      c.imageMaxHeight, c.imageThumbnailSize, c.audioMp3BitrateKbps, c.audioMaxSampleRate,
      c.videoMaxFps, c.videoH264Crf].map .number ++
    [word c.videoH264Preset.name, .number c.videoAudioBitrateKbps]

variable {environment : EnvironmentInput}

/-- The first error of a section that begins with a variable. -/
theorem errors_field {α β : Type} {read : Except EnvironmentValidationError α}
    {next : α → Except EnvironmentValidationError β} {name : String} {rule : Rule} {rest : Schema}
    (first : errors read =
      (rule.problem (environment name)).map fun reason => failure (name, reason))
    (second : ∀ value, errors (next value) = (firstProblem format rest environment).map failure) :
    errors (read >>= next) =
      (firstProblem format ((name, rule) :: rest) environment).map failure := by
  rw [errors_bind second, first, firstProblem_cons]
  change _ = Option.map failure (((rule.problem (environment name)).map (name, ·)).or _)
  cases rule.problem (environment name) <;> rfl

theorem port_ok {name : String} {n : ℕ} : port environment name = .ok n ↔
    Holds format portRule (.number n) (environment name) := integer_ok

theorem nodeEnvironment_ok {name : String} {option : WorkerHeartbeat.NodeEnvironment} :
    oneOf nodeEnvironmentName environment name [.development, .test, .production] = .ok option ↔
      Holds format (.oneOf ["development", "test", "production"])
        (word (nodeEnvironmentName option)) (environment name) := by
  refine oneOf_ok (fun x y same => ?_) (by cases option <;> decide)
  cases x <;> cases y <;> first | rfl | exact absurd same (by decide)

theorem logLevel_ok {name : String} {option : LogLevel} :
    oneOf LogLevel.name environment name [.debug, .info, .warn, .error] = .ok option ↔
      Holds format (.oneOf ["debug", "info", "warn", "error"]) (word option.name)
        (environment name) := by
  refine oneOf_ok (fun x y same => ?_) (by cases option <;> decide)
  cases x <;> cases y <;> first | rfl | exact absurd same (by decide)

theorem profile_ok {name : String} {option : ProcessingProfile} :
    oneOf ProcessingProfile.name environment name [.balancedV1] = .ok option ↔
      Holds format (.oneOf ["balanced-v1"]) (word option.name) (environment name) :=
  oneOf_ok (fun _ _ _ => rfl) (by cases option; decide)

theorem preset_ok {name : String} {option : H264Preset} :
    oneOf H264Preset.name environment name [.veryfast] = .ok option ↔
      Holds format (.oneOf ["veryfast"]) (word option.name) (environment name) :=
  oneOf_ok (fun _ _ _ => rfl) (by cases option; decide)

theorem exists_profile {p : ProcessingProfile → Prop} : (∃ option, p option) ↔ p .balancedV1 := by
  constructor
  · rintro ⟨⟨⟩, holds⟩
    exact holds
  · exact fun holds => ⟨_, holds⟩

theorem exists_preset {p : H264Preset → Prop} : (∃ option, p option) ↔ p .veryfast := by
  constructor
  · rintro ⟨⟨⟩, holds⟩
    exact holds
  · exact fun holds => ⟨_, holds⟩

theorem app_errors : errors (app environment) =
    (firstProblem format appSchema environment).map failure :=
  errors_field oneOf_errors fun _ => errors_field integer_errors fun _ =>
    errors_field requiredString_errors fun _ => errors_field oneOf_errors fun _ => rfl

theorem app_ok {c : App} : app environment = .ok c ↔
    Describes format appSchema c.values environment := by
  cases c
  simp [-bind_pure_comp, app, bind_eq_ok_iff, pure_eq_ok_iff, requiredString_ok, port_ok,
    nodeEnvironment_ok, logLevel_ok, appSchema, App.values]

theorem database_errors : errors (database environment) =
    (firstProblem format databaseSchema environment).map failure :=
  errors_field requiredString_errors fun _ => rfl

theorem database_ok {c : Database} : database environment = .ok c ↔
    Describes format databaseSchema c.values environment := by
  cases c
  simp [-bind_pure_comp, database, bind_eq_ok_iff, pure_eq_ok_iff, requiredString_ok,
    databaseSchema, Database.values, strings]

theorem redis_errors : errors (redis environment) =
    (firstProblem format redisSchema environment).map failure :=
  errors_field requiredString_errors fun _ => errors_field integer_errors fun _ => rfl

theorem redis_ok {c : Redis} : redis environment = .ok c ↔
    Describes format redisSchema c.values environment := by
  cases c
  simp [-bind_pure_comp, redis, bind_eq_ok_iff, pure_eq_ok_iff, requiredString_ok, port_ok,
    redisSchema, Redis.values]

theorem storage_errors : errors (storage environment) =
    (firstProblem format storageSchema environment).map failure := by
  refine errors_field requiredString_errors fun _ => errors_field integer_errors fun _ =>
    errors_field boolean_errors fun _ => ?_
  repeat refine errors_field requiredString_errors fun _ => ?_
  exact errors_field integer_errors fun _ => rfl

theorem storage_ok {c : Storage} : storage environment = .ok c ↔
    Describes format storageSchema c.values environment := by
  cases c
  simp [-bind_pure_comp, -Bool.exists_bool, storage, bind_eq_ok_iff, pure_eq_ok_iff,
    requiredString_ok, port_ok, boolean_ok, integer_ok, storageSchema, Storage.values, strings,
    positives]

theorem upload_errors : errors (upload environment) =
    (firstProblem format uploadSchema environment).map failure := by
  refine errors_field requiredString_errors fun _ => ?_
  repeat refine errors_field integer_errors fun _ => ?_
  rfl

theorem upload_ok {c : Upload} : upload environment = .ok c ↔
    Describes format uploadSchema c.values environment := by
  cases c
  simp [-bind_pure_comp, upload, bind_eq_ok_iff, pure_eq_ok_iff, requiredString_ok, integer_ok,
    uploadSchema, Upload.values, strings, positives]

theorem idempotency_errors : errors (idempotency environment) =
    (firstProblem format idempotencySchema environment).map failure :=
  errors_field integer_errors fun _ => errors_field integer_errors fun _ => rfl

theorem idempotency_ok {c : Idempotency} : idempotency environment = .ok c ↔
    Describes format idempotencySchema c.values environment := by
  cases c
  simp [-bind_pure_comp, idempotency, bind_eq_ok_iff, pure_eq_ok_iff, integer_ok,
    idempotencySchema, Idempotency.values, positives]

theorem outbox_errors : errors (outbox environment) =
    (firstProblem format outboxSchema environment).map failure := by
  repeat refine errors_field integer_errors fun _ => ?_
  rfl

theorem outbox_ok {c : Outbox} : outbox environment = .ok c ↔
    Describes format outboxSchema c.values environment := by
  cases c
  simp [-bind_pure_comp, outbox, bind_eq_ok_iff, pure_eq_ok_iff, integer_ok, outboxSchema,
    Outbox.values, positives]

theorem worker_errors : errors (worker environment) =
    (firstProblem format workerSchema environment).map failure := by
  repeat refine errors_field integer_errors fun _ => ?_
  refine errors_field requiredString_errors fun _ => ?_
  repeat refine errors_field integer_errors fun _ => ?_
  rfl

theorem worker_ok {c : Worker} : worker environment = .ok c ↔
    Describes format workerSchema c.values environment := by
  cases c
  simp [-bind_pure_comp, worker, bind_eq_ok_iff, pure_eq_ok_iff, requiredString_ok, integer_ok,
    workerSchema, Worker.values, strings, positives]

theorem processing_errors : errors (processing environment) =
    (firstProblem format processingSchema environment).map failure := by
  refine errors_field oneOf_errors fun _ => ?_
  repeat refine errors_field integer_errors fun _ => ?_
  exact errors_field oneOf_errors fun _ => errors_field integer_errors fun _ => rfl

theorem processing_ok {c : Processing} : processing environment = .ok c ↔
    Describes format processingSchema c.values environment := by
  obtain ⟨⟨⟩, _, _, _, _, _, _, _, _, _, _, _, ⟨⟩, _⟩ := c
  simp [-bind_pure_comp, processing, bind_eq_ok_iff, pure_eq_ok_iff, integer_ok, profile_ok,
    preset_ok, exists_profile, exists_preset, processingSchema, Processing.values, positives]

end Sections

section Environment

variable {environment : EnvironmentInput} {c : EnvironmentConfiguration}

def schema : Schema :=
  [appSchema, databaseSchema, redisSchema, storageSchema, uploadSchema, idempotencySchema,
    outboxSchema, workerSchema, processingSchema].flatten

def EnvironmentConfiguration.values (c : EnvironmentConfiguration) : List Setting :=
  [c.app.values, c.database.values, c.redis.values, c.storage.values, c.upload.values,
    c.idempotency.values, c.outbox.values, c.worker.values, c.processing.values].flatten

/-- The error of two settings that do not fit each other. -/
def conflict (c : EnvironmentConfiguration) : Option EnvironmentValidationError :=
  if c.worker.processingLeaseSeconds ≤ c.worker.processingLeaseRenewSeconds then
    some (failure ("PROCESSING_LEASE_RENEW_SECONDS", "must be less than PROCESSING_LEASE_SECONDS"))
  else if c.worker.heartbeatStaleSeconds ≤ c.worker.heartbeatIntervalSeconds then
    some (failure ("WORKER_HEARTBEAT_STALE_SECONDS",
      "must be greater than WORKER_HEARTBEAT_INTERVAL_SECONDS"))
  else none

/-- The object literal of `parseEnvironment`. -/
def sections (environment : EnvironmentInput) :
    Except EnvironmentValidationError EnvironmentConfiguration := do
  let app ← app environment
  let database ← database environment
  let redis ← redis environment
  let storage ← storage environment
  let upload ← upload environment
  let idempotency ← idempotency environment
  let outbox ← outbox environment
  let worker ← worker environment
  let processing ← processing environment
  return { app, database, redis, storage, upload, idempotency, outbox, worker, processing }

def check (c : EnvironmentConfiguration) :
    Except EnvironmentValidationError EnvironmentConfiguration :=
  (conflict c).elim (.ok c) .error

theorem parseEnvironment_eq : parseEnvironment environment = sections environment >>= check := by
  unfold parseEnvironment sections
  simp only [bind_assoc, pure_bind]
  iterate 9 refine bind_congr fun _ => ?_
  unfold check conflict
  split
  · rfl
  · split <;> rfl

theorem errors_append {α β : Type} {read : Except EnvironmentValidationError α}
    {next : α → Except EnvironmentValidationError β} {part rest : Schema}
    (first : errors read = (firstProblem format part environment).map failure)
    (second : ∀ value, errors (next value) = (firstProblem format rest environment).map failure) :
    errors (read >>= next) = (firstProblem format (part ++ rest) environment).map failure := by
  rw [errors_bind second, first, firstProblem_append]
  cases firstProblem format part environment <;> rfl

theorem sections_errors : errors (sections environment) =
    (firstProblem format schema environment).map failure :=
  errors_append app_errors fun _ => errors_append database_errors fun _ =>
    errors_append redis_errors fun _ => errors_append storage_errors fun _ =>
    errors_append upload_errors fun _ => errors_append idempotency_errors fun _ =>
    errors_append outbox_errors fun _ => errors_append worker_errors fun _ =>
    errors_append processing_errors fun _ => rfl

theorem describes_values : Describes format schema c.values environment ↔
    Describes format appSchema c.app.values environment ∧
    Describes format databaseSchema c.database.values environment ∧
    Describes format redisSchema c.redis.values environment ∧
    Describes format storageSchema c.storage.values environment ∧
    Describes format uploadSchema c.upload.values environment ∧
    Describes format idempotencySchema c.idempotency.values environment ∧
    Describes format outboxSchema c.outbox.values environment ∧
    Describes format workerSchema c.worker.values environment ∧
    Describes format processingSchema c.processing.values environment := by
  unfold schema EnvironmentConfiguration.values
  simp only [List.flatten_cons, List.flatten_nil]
  iterate 9 rw [describes_append]
  · rw [describes_nil, eq_self, and_true]
  all_goals rfl

theorem sections_ok : sections environment = .ok c ↔
    Describes format schema c.values environment := by
  rw [describes_values]
  cases c
  simp [-bind_pure_comp, sections, bind_eq_ok_iff, pure_eq_ok_iff, app_ok, database_ok, redis_ok,
    storage_ok, upload_ok, idempotency_ok, outbox_ok, worker_ok, processing_ok]

theorem parseEnvironment_ok : parseEnvironment environment = .ok c ↔
    Describes format schema c.values environment ∧ conflict c = none := by
  rw [parseEnvironment_eq, bind_eq_ok_iff]
  constructor
  · rintro ⟨read, parsed, checked⟩
    unfold check at checked
    cases clear : conflict read with
    | none =>
        rw [clear] at checked
        cases checked
        exact ⟨sections_ok.mp parsed, clear⟩
    | some error =>
        rw [clear] at checked
        cases checked
  · rintro ⟨described, clear⟩
    exact ⟨c, sections_ok.mpr described, by rw [check, clear]; rfl⟩

theorem parseEnvironment_error {error : EnvironmentValidationError} :
    parseEnvironment environment = .error error ↔
      (firstProblem format schema environment).map failure = some error ∨
        ∃ c, Describes format schema c.values environment ∧ conflict c = some error := by
  rw [parseEnvironment_eq, ← sections_errors]
  constructor
  · intro failed
    cases parsed : sections environment with
    | error own =>
        rw [parsed] at failed
        cases failed
        exact .inl rfl
    | ok c =>
        refine .inr ⟨c, sections_ok.mp parsed, ?_⟩
        rw [parsed] at failed
        change check c = .error error at failed
        unfold check at failed
        cases found : conflict c with
        | none =>
            rw [found] at failed
            cases failed
        | some own =>
            rw [found] at failed
            cases failed
            rfl
  · rintro (failed | ⟨c, described, found⟩)
    · rw [eq_error_iff.mpr failed]
      rfl
    · rw [sections_ok.mpr described]
      change check c = .error error
      rw [check, found]
      rfl

theorem schema_distinct : (schema.map Prod.fst).Nodup := by decide +kernel

end Environment

end PostsMedia.Configuration
