import PostsMedia.Domain.Decimal
import PostsMedia.Library.Fields
import PostsMedia.Processing.Heartbeat

namespace PostsMedia.Configuration

open WorkerHeartbeat (NodeEnvironment)

def nodeEnvironmentName : NodeEnvironment → String
  | .development => "development"
  | .test => "test"
  | .production => "production"

inductive LogLevel
  | debug | info | warn | error
  deriving DecidableEq

def LogLevel.name : LogLevel → String
  | .debug => "debug"
  | .info => "info"
  | .warn => "warn"
  | .error => "error"

inductive ProcessingProfile
  | balancedV1
  deriving DecidableEq

def ProcessingProfile.name : ProcessingProfile → String
  | .balancedV1 => "balanced-v1"

inductive H264Preset
  | veryfast
  deriving DecidableEq

def H264Preset.name : H264Preset → String
  | .veryfast => "veryfast"

structure App where
  nodeEnvironment : NodeEnvironment
  port : ℕ
  apiPrefix : Text
  logLevel : LogLevel

structure Database where
  url : Text

structure Redis where
  host : Text
  port : ℕ

structure Storage where
  endpoint : Text
  port : ℕ
  useSsl : Bool
  accessKey : Text
  secretKey : Text
  originalsBucket : Text
  processedBucket : Text
  temporaryBucket : Text
  presignedUrlTtlSeconds : ℕ

structure Upload where
  temporaryRoot : Text
  temporaryMaxAgeMinutes : ℕ
  maxFilesPerRequest : ℕ
  maxTotalUploadSizeMb : ℕ
  maxImageSizeMb : ℕ
  maxAudioSizeMb : ℕ
  maxVideoSizeMb : ℕ
  maxImagePixels : ℕ
  maxAudioDurationSeconds : ℕ
  maxVideoDurationSeconds : ℕ
  maxVideoWidth : ℕ
  maxVideoHeight : ℕ
  maxMediaStreams : ℕ
  mediaProbeTimeoutMs : ℕ

structure Idempotency where
  ttlHours : ℕ
  leaseSeconds : ℕ

structure Outbox where
  pollIntervalMs : ℕ
  batchSize : ℕ
  publishConcurrency : ℕ
  leaseSeconds : ℕ
  maxRetryDelaySeconds : ℕ
  publishedRetentionDays : ℕ

structure Worker where
  imageConcurrency : ℕ
  audioConcurrency : ℕ
  videoConcurrency : ℕ
  mediaJobAttempts : ℕ
  mediaJobBackoffMs : ℕ
  processingLeaseSeconds : ℕ
  processingLeaseRenewSeconds : ℕ
  temporaryRoot : Text
  heartbeatIntervalSeconds : ℕ
  heartbeatStaleSeconds : ℕ

structure Processing where
  profile : ProcessingProfile
  imageTimeoutMs : ℕ
  audioTimeoutMs : ℕ
  videoTimeoutMs : ℕ
  imageWebpQuality : ℕ
  imageMaxWidth : ℕ
  imageMaxHeight : ℕ
  imageThumbnailSize : ℕ
  audioMp3BitrateKbps : ℕ
  audioMaxSampleRate : ℕ
  videoMaxFps : ℕ
  videoH264Crf : ℕ
  videoH264Preset : H264Preset
  videoAudioBitrateKbps : ℕ

structure EnvironmentConfiguration where
  app : App
  database : Database
  redis : Redis
  storage : Storage
  upload : Upload
  idempotency : Idempotency
  outbox : Outbox
  worker : Worker
  processing : Processing

structure EnvironmentValidationError where
  message : String

/-- The variables of the process. -/
abbrev EnvironmentInput := String → Option Text

structure IntegerOptions where
  min : ℕ
  max : Option ℕ := none

def fail {α : Type} (name reason : String) : Except EnvironmentValidationError α :=
  .error { message := name ++ " " ++ reason }

def requiredString (environment : EnvironmentInput) (name : String) :
    Except EnvironmentValidationError Text :=
  match (environment name).map Text.trim with
  | none => fail name "must be set"
  | some value => if value.length = 0 then fail name "must be set" else .ok value

/-- The numeral of a natural number. The checks leave no other number. -/
def naturalOf : Number → ℕ
  | .finite value => value.num.toNat
  | _ => 0

def integer (environment : EnvironmentInput) (name : String) (options : IntegerOptions) :
    Except EnvironmentValidationError ℕ := do
  let value ← requiredString environment name
  if !Text.isDecimal value then fail name "must be a base-10 integer"
  else
    let parsed := stringToNumber value
    if !parsed.isSafeInteger || parsed.lt (.finite options.min) then
      fail name s!"must be at least {options.min}"
    else match options.max with
      | none => .ok (naturalOf parsed)
      | some max =>
          if (Number.finite max).lt parsed then fail name s!"must be at most {max}"
          else .ok (naturalOf parsed)

def port (environment : EnvironmentInput) (name : String) : Except EnvironmentValidationError ℕ :=
  integer environment name { min := 1, max := some 65535 }

/-- No other letter than the ASCII capitals has the lower case of one of these texts. -/
def boolean (environment : EnvironmentInput) (name : String) :
    Except EnvironmentValidationError Bool := do
  let value := (← requiredString environment name).map Text.lowerUnit
  if value = Text.ofString "true" then return true
  if value = Text.ofString "false" then return false
  fail name "must be either true or false"

def oneOf {T : Type} (literal : T → String) (environment : EnvironmentInput) (name : String)
    (supported : List T) : Except EnvironmentValidationError T := do
  let value ← requiredString environment name
  match supported.find? fun candidate => decide (Text.ofString (literal candidate) = value) with
  | some supportedValue => return supportedValue
  | none => fail name ("must be one of: " ++ ", ".intercalate (supported.map literal))

def app (environment : EnvironmentInput) : Except EnvironmentValidationError App := do
  let nodeEnvironment ←
    oneOf nodeEnvironmentName environment "NODE_ENV" [.development, .test, .production]
  let port ← port environment "PORT"
  let apiPrefix ← requiredString environment "API_PREFIX"
  let logLevel ← oneOf LogLevel.name environment "LOG_LEVEL" [.debug, .info, .warn, .error]
  return { nodeEnvironment, port, apiPrefix, logLevel }

def database (environment : EnvironmentInput) : Except EnvironmentValidationError Database := do
  let url ← requiredString environment "DATABASE_URL"
  return { url }

def redis (environment : EnvironmentInput) : Except EnvironmentValidationError Redis := do
  let host ← requiredString environment "REDIS_HOST"
  let port ← port environment "REDIS_PORT"
  return { host, port }

def storage (environment : EnvironmentInput) : Except EnvironmentValidationError Storage := do
  let endpoint ← requiredString environment "MINIO_ENDPOINT"
  let port ← port environment "MINIO_PORT"
  let useSsl ← boolean environment "MINIO_USE_SSL"
  let accessKey ← requiredString environment "MINIO_ACCESS_KEY"
  let secretKey ← requiredString environment "MINIO_SECRET_KEY"
  let originalsBucket ← requiredString environment "MINIO_ORIGINALS_BUCKET"
  let processedBucket ← requiredString environment "MINIO_PROCESSED_BUCKET"
  let temporaryBucket ← requiredString environment "MINIO_TEMP_BUCKET"
  let presignedUrlTtlSeconds ← integer environment "MINIO_PRESIGNED_URL_TTL_SECONDS" { min := 1 }
  return {
    endpoint, port, useSsl, accessKey, secretKey, originalsBucket, processedBucket,
    temporaryBucket, presignedUrlTtlSeconds }

def upload (environment : EnvironmentInput) : Except EnvironmentValidationError Upload := do
  let temporaryRoot ← requiredString environment "UPLOAD_TEMP_ROOT"
  let temporaryMaxAgeMinutes ← integer environment "UPLOAD_TEMP_MAX_AGE_MINUTES" { min := 1 }
  let maxFilesPerRequest ← integer environment "MAX_FILES_PER_REQUEST" { min := 1 }
  let maxTotalUploadSizeMb ← integer environment "MAX_TOTAL_UPLOAD_SIZE_MB" { min := 1 }
  let maxImageSizeMb ← integer environment "MAX_IMAGE_SIZE_MB" { min := 1 }
  let maxAudioSizeMb ← integer environment "MAX_AUDIO_SIZE_MB" { min := 1 }
  let maxVideoSizeMb ← integer environment "MAX_VIDEO_SIZE_MB" { min := 1 }
  let maxImagePixels ← integer environment "MAX_IMAGE_PIXELS" { min := 1 }
  let maxAudioDurationSeconds ← integer environment "MAX_AUDIO_DURATION_SECONDS" { min := 1 }
  let maxVideoDurationSeconds ← integer environment "MAX_VIDEO_DURATION_SECONDS" { min := 1 }
  let maxVideoWidth ← integer environment "MAX_VIDEO_WIDTH" { min := 1 }
  let maxVideoHeight ← integer environment "MAX_VIDEO_HEIGHT" { min := 1 }
  let maxMediaStreams ← integer environment "MAX_MEDIA_STREAMS" { min := 1 }
  let mediaProbeTimeoutMs ← integer environment "MEDIA_PROBE_TIMEOUT_MS" { min := 1 }
  return {
    temporaryRoot, temporaryMaxAgeMinutes, maxFilesPerRequest, maxTotalUploadSizeMb,
    maxImageSizeMb, maxAudioSizeMb, maxVideoSizeMb, maxImagePixels, maxAudioDurationSeconds,
    maxVideoDurationSeconds, maxVideoWidth, maxVideoHeight, maxMediaStreams, mediaProbeTimeoutMs }

def idempotency (environment : EnvironmentInput) :
    Except EnvironmentValidationError Idempotency := do
  let ttlHours ← integer environment "IDEMPOTENCY_TTL_HOURS" { min := 1 }
  let leaseSeconds ← integer environment "IDEMPOTENCY_LEASE_SECONDS" { min := 1 }
  return { ttlHours, leaseSeconds }

def outbox (environment : EnvironmentInput) : Except EnvironmentValidationError Outbox := do
  let pollIntervalMs ← integer environment "OUTBOX_POLL_INTERVAL_MS" { min := 1 }
  let batchSize ← integer environment "OUTBOX_BATCH_SIZE" { min := 1 }
  let publishConcurrency ← integer environment "OUTBOX_PUBLISH_CONCURRENCY" { min := 1 }
  let leaseSeconds ← integer environment "OUTBOX_LEASE_SECONDS" { min := 1 }
  let maxRetryDelaySeconds ← integer environment "OUTBOX_MAX_RETRY_DELAY_SECONDS" { min := 1 }
  let publishedRetentionDays ← integer environment "OUTBOX_PUBLISHED_RETENTION_DAYS" { min := 1 }
  return {
    pollIntervalMs, batchSize, publishConcurrency, leaseSeconds, maxRetryDelaySeconds,
    publishedRetentionDays }

def worker (environment : EnvironmentInput) : Except EnvironmentValidationError Worker := do
  let imageConcurrency ← integer environment "IMAGE_WORKER_CONCURRENCY" { min := 1 }
  let audioConcurrency ← integer environment "AUDIO_WORKER_CONCURRENCY" { min := 1 }
  let videoConcurrency ← integer environment "VIDEO_WORKER_CONCURRENCY" { min := 1 }
  let mediaJobAttempts ← integer environment "MEDIA_JOB_ATTEMPTS" { min := 1 }
  let mediaJobBackoffMs ← integer environment "MEDIA_JOB_BACKOFF_MS" { min := 1 }
  let processingLeaseSeconds ← integer environment "PROCESSING_LEASE_SECONDS" { min := 1 }
  let processingLeaseRenewSeconds ←
    integer environment "PROCESSING_LEASE_RENEW_SECONDS" { min := 1 }
  let temporaryRoot ← requiredString environment "WORKER_TEMP_ROOT"
  let heartbeatIntervalSeconds ←
    integer environment "WORKER_HEARTBEAT_INTERVAL_SECONDS" { min := 1 }
  let heartbeatStaleSeconds ← integer environment "WORKER_HEARTBEAT_STALE_SECONDS" { min := 1 }
  return {
    imageConcurrency, audioConcurrency, videoConcurrency, mediaJobAttempts, mediaJobBackoffMs,
    processingLeaseSeconds, processingLeaseRenewSeconds, temporaryRoot, heartbeatIntervalSeconds,
    heartbeatStaleSeconds }

def processing (environment : EnvironmentInput) : Except EnvironmentValidationError Processing := do
  let profile ← oneOf ProcessingProfile.name environment "PROCESSING_PROFILE" [.balancedV1]
  let imageTimeoutMs ← integer environment "IMAGE_PROCESSING_TIMEOUT_MS" { min := 1 }
  let audioTimeoutMs ← integer environment "AUDIO_PROCESSING_TIMEOUT_MS" { min := 1 }
  let videoTimeoutMs ← integer environment "VIDEO_PROCESSING_TIMEOUT_MS" { min := 1 }
  let imageWebpQuality ← integer environment "IMAGE_WEBP_QUALITY" { min := 1, max := some 100 }
  let imageMaxWidth ← integer environment "IMAGE_MAX_WIDTH" { min := 1 }
  let imageMaxHeight ← integer environment "IMAGE_MAX_HEIGHT" { min := 1 }
  let imageThumbnailSize ← integer environment "IMAGE_THUMBNAIL_SIZE" { min := 1 }
  let audioMp3BitrateKbps ← integer environment "AUDIO_MP3_BITRATE_KBPS" { min := 1 }
  let audioMaxSampleRate ← integer environment "AUDIO_MAX_SAMPLE_RATE" { min := 1 }
  let videoMaxFps ← integer environment "VIDEO_MAX_FPS" { min := 1 }
  let videoH264Crf ← integer environment "VIDEO_H264_CRF" { min := 0, max := some 51 }
  let videoH264Preset ← oneOf H264Preset.name environment "VIDEO_H264_PRESET" [.veryfast]
  let videoAudioBitrateKbps ← integer environment "VIDEO_AUDIO_BITRATE_KBPS" { min := 1 }
  return {
    profile, imageTimeoutMs, audioTimeoutMs, videoTimeoutMs, imageWebpQuality, imageMaxWidth,
    imageMaxHeight, imageThumbnailSize, audioMp3BitrateKbps, audioMaxSampleRate, videoMaxFps,
    videoH264Crf, videoH264Preset, videoAudioBitrateKbps }

def parseEnvironment (environment : EnvironmentInput) :
    Except EnvironmentValidationError EnvironmentConfiguration := do
  let app ← app environment
  let database ← database environment
  let redis ← redis environment
  let storage ← storage environment
  let upload ← upload environment
  let idempotency ← idempotency environment
  let outbox ← outbox environment
  let worker ← worker environment
  let processing ← processing environment
  let configuration : EnvironmentConfiguration :=
    { app, database, redis, storage, upload, idempotency, outbox, worker, processing }
  if configuration.worker.processingLeaseSeconds ≤
      configuration.worker.processingLeaseRenewSeconds then
    fail "PROCESSING_LEASE_RENEW_SECONDS" "must be less than PROCESSING_LEASE_SECONDS"
  else if configuration.worker.heartbeatStaleSeconds ≤
      configuration.worker.heartbeatIntervalSeconds then
    fail "WORKER_HEARTBEAT_STALE_SECONDS"
      "must be greater than WORKER_HEARTBEAT_INTERVAL_SECONDS"
  else return configuration

end PostsMedia.Configuration
