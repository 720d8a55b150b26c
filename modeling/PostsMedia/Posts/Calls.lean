import PostsMedia.Idempotency.Fencing
import PostsMedia.Posts.Transactions

namespace PostsMedia.Posts

open Idempotency

/-- What one call of create-post or of add-media brings to its domain transaction. -/
inductive PostsCall
  | createPost (post : Post) (promoted : List PromotedUpload)
  | addPostMedia (postId : String) (promoted : List PromotedUpload)

/-- All calls of the two services on one key. -/
structure PostsCalls where
  ttlHours : Nat
  leaseSeconds : Nat
  fingerprint : CallId → String
  call : CallId → PostsCall
  presentPost : Post → List Media → Json
  presentAdded : List Media → Json

def PostsCall.service : PostsCall → Service
  | .createPost .. => .createPost
  | .addPostMedia .. => .addPostMedia

/-- Both services finalize their key inside the domain transaction. -/
@[simp] theorem PostsCall.service_joins (call : PostsCall) : call.service.joins = true := by
  cases call <;> rfl

namespace PostsCalls

variable {η : Type} (calls : PostsCalls)

/-- The domain transaction of one call. -/
def action (r : CallId) : Tables → Option ((Tables → Tables) × IdempotentOutcome) :=
  match calls.call r with
  | .createPost post promoted => createPostTransaction calls.presentPost post promoted
  | .addPostMedia postId promoted => addPostMediaTransaction calls.presentAdded postId promoted

/-- The calls on the key beside everybody else who writes the tables. -/
def setting (environment : η → Tables → Option Tables) : Setting Tables η where
  ttlHours := calls.ttlHours
  leaseSeconds := calls.leaseSeconds
  service r := (calls.call r).service
  fingerprint := calls.fingerprint
  action := calls.action
  environment := environment

end PostsCalls

/-- A title-only create-post request of two clients that share a key. -/
def jsonCalls : PostsCalls where
  ttlHours := 24
  leaseSeconds := 900
  fingerprint _ := "fingerprint"
  call r := .createPost
    { id := if r = 0 then "post-0" else "post-1", title := "Title", content := "", createdAt := 0,
      updatedAt := 0 } []
  presentPost post _ := .obj [("id", .str post.id), ("title", .str post.title)]
  presentAdded _ := .null

/-- The two clients alone in an empty database. -/
def jsonSetting : Setting Tables Empty := jsonCalls.setting fun _ tables => some tables

/-- Their start. -/
def jsonStart : State Tables := State.fresh 0 ⟨[], [], []⟩

theorem jsonStart_initial : (machine jsonSetting).initial jsonStart := ⟨0, ⟨[], [], []⟩, rfl⟩

/-- One client creates its post alone. -/
def loneCommit : List (Event Empty) :=
  [.acquire 0, .create 0 .ok, .finalizeInTransaction 0 .ok, .commit 0 .ok]

/-- The second client reclaims the key of the first one and finalizes it. -/
def reclaimedCommit : List (Event Empty) :=
  [.acquire 0, .create 0 .ok, .tick 900000, .acquire 1, .create 1 .ok, .find 1 .ok, .decide 1,
    .reclaim 1 .ok, .finalizeInTransaction 1 .ok, .commit 1 .ok]

end PostsMedia.Posts
