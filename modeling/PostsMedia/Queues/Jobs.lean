import PostsMedia.Library.Segments
import PostsMedia.Queues.Dispatch

namespace PostsMedia

/-- The state of the BullMQ job with one job id. A delayed job waits. -/
inductive Job
  | absent
  | waiting (payload : MediaJobPayloadV1) (attemptsMade : Nat)
  | active (payload : MediaJobPayloadV1) (attemptsMade : Nat) (processor : Nat)
  | completed
  | failed
  deriving DecidableEq

namespace Job

/-- The job will be processed or is being processed. -/
def live : Job → Bool
  | .waiting .. | .active .. => true
  | _ => false

/-- `queue.add` does nothing when the job id exists, finished jobs included. -/
def add (payload : MediaJobPayloadV1) : Job → Job
  | .absent => .waiting payload 0
  | job => job

/-- A processor that throws uses up one of the attempts. -/
def throw (attempts : Nat) (payload : MediaJobPayloadV1) (attemptsMade : Nat) : Job :=
  if attempts ≤ attemptsMade + 1 then .failed else .waiting payload (attemptsMade + 1)

/-- The automatic removal of a finished job. -/
def expire : Job → Option Job
  | .completed | .failed => some .absent
  | _ => none

end Job

/-- What `queueOptionsFor` reads of the configuration. -/
structure QueueRuntimeConfiguration where
  host : String
  port : Nat
  mediaJobAttempts : Nat
  mediaJobBackoffMs : Nat

/-- The automatic removal of finished jobs. The age is in seconds. -/
structure KeepJobs where
  age : Nat
  count : Nat

structure BackoffOptions where
  type : String
  delay : Nat

structure DefaultJobOptions where
  attempts : Nat
  backoff : BackoffOptions
  removeOnComplete : KeepJobs
  removeOnFail : KeepJobs

structure QueueOptions where
  host : String
  port : Nat
  defaultJobOptions : DefaultJobOptions
  keyPrefix : String

def MediaType.lowerCase : MediaType → String
  | .image => "image"
  | .audio => "audio"
  | .video => "video"

def queueOptionsFor (mediaType : MediaType) (configuration : QueueRuntimeConfiguration) :
    QueueOptions where
  host := configuration.host
  port := configuration.port
  defaultJobOptions :=
    { attempts := configuration.mediaJobAttempts
      backoff := ⟨"exponential", configuration.mediaJobBackoffMs⟩
      removeOnComplete := ⟨7 * 24 * 60 * 60, 1000⟩
      removeOnFail := ⟨7 * 24 * 60 * 60, 1000⟩ }
  keyPrefix := "posts-media:" ++ mediaType.lowerCase

/-- The job id of a media determines the generation. -/
theorem mediaJobId_inj {mediaId : String} {generation generation' : Nat}
    (same : mediaJobId mediaId generation = mediaJobId mediaId generation') :
    generation = generation' := by
  have texts := congrArg String.toList same
  simp only [mediaJobId, String.toList_append, List.append_cancel_left_eq] at texts
  exact Segments.toString_inj texts

/-- A job id determines the media too, whatever its id looks like. -/
theorem mediaJobId_injective {mediaId mediaId' : String} {generation generation' : Nat}
    (same : mediaJobId mediaId generation = mediaJobId mediaId' generation') :
    mediaId = mediaId' ∧ generation = generation' := by
  have split (mediaId : String) (generation : Nat) :
      (mediaJobId mediaId generation).toList.reverse =
        (toString generation).toList.reverse ++
          '-' :: ("media-".toList ++ mediaId.toList ++ "-generation".toList).reverse := by
    have texts : "-generation-".toList = "-generation".toList ++ ['-'] := rfl
    simp [mediaJobId, texts]
  have plain (generation : Nat) : '-' ∉ (toString generation).toList.reverse := by
    rw [List.mem_reverse]
    exact Segments.plain_toString rfl generation
  have reversed := congrArg (fun text => text.toList.reverse) same
  simp only [split] at reversed
  have rests := (Segments.split_inj (plain generation) (plain generation') reversed).2
  have owners : mediaId.toList = mediaId'.toList := by simpa using rests
  have equal : mediaId = mediaId' := String.toList_inj.mp owners
  subst equal
  exact ⟨rfl, mediaJobId_inj same⟩

end PostsMedia
