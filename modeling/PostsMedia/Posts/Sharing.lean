import Mathlib.Logic.Function.Basic
import PostsMedia.Posts.Calls
import PostsMedia.Posts.Rejections

namespace PostsMedia.Sharing

open Posts (PostsCall postNotFound postSoftDeleted)

abbrev RequestId := Nat

abbrev ToggleId := Nat

/-- A call of `softDelete` or of `restore`. -/
inductive Toggle
  | softDelete (postId : String)
  | restore (postId : String)

def Toggle.postId : Toggle → String
  | .softDelete postId | .restore postId => postId

/-- All upload requests and all deletions and restores. Every create-post draws a new post id. -/
structure Traffic where
  call : RequestId → PostsCall
  toggle : ToggleId → Toggle
  postId_fresh : ∀ r r' post post' promoted promoted', call r = .createPost post promoted →
    call r' = .createPost post' promoted' → post.id = post'.id → r = r'

/-- The program point of one upload request. Its inserts stay its own until the commit. -/
inductive Phase
  | idle
  | checked
  | locked
  | inserting (start : Nat) (created : List (Media × ProcessingDispatch))
      (pending : List PromotedUpload)
  | rejected (error : DomainError)
  | committed
  | failed

/-- The program point of one deletion or restore. -/
inductive TogglePhase
  | idle
  | updating
  | ended

/-- The rows of one committed request. -/
structure Batch where
  request : RequestId
  postId : String
  start : Nat
  rows : List Media

/-- The committed tables, the locks on the post rows and all calls. The committed requests are
recorded for the proofs. -/
structure State where
  tables : Tables
  locks : String → Option RequestId
  requests : RequestId → Phase
  toggles : ToggleId → TogglePhase
  commits : List Batch

/-- One statement of a request or of a toggle, or the end of a request. -/
inductive Event
  | begin (r : RequestId)
  | lock (r : RequestId)
  | aggregate (r : RequestId)
  | insert (r : RequestId)
  | commit (r : RequestId) (fate : Fate)
  | abort (r : RequestId)
  | read (q : ToggleId)
  | update (q : ToggleId) (now : Time)

/-- The committed row of a post. -/
def postOf (tables : Tables) (postId : String) : Option Post := tables.posts.find? (·.id = postId)

def PostsCall.postId : PostsCall → String
  | .createPost post _ => post.id
  | .addPostMedia postId _ => postId

def PostsCall.promoted : PostsCall → List PromotedUpload
  | .createPost _ promoted | .addPostMedia _ promoted => promoted

/-- The post that the transaction inserts. -/
def PostsCall.posts : PostsCall → List Post
  | .createPost post _ => [post]
  | .addPostMedia _ _ => []

namespace State

variable (s : State)

def goto (r : RequestId) (phase : Phase) : State :=
  { s with requests := Function.update s.requests r phase }

/-- The transaction ended and released its lock. -/
def finish (r : RequestId) (phase : Phase) : State :=
  { s.goto r phase with
    locks := fun postId => if s.locks postId = some r then none else s.locks postId }

/-- The inserts of a request become visible together. -/
def apply (r : RequestId) (call : PostsCall) (start : Nat)
    (created : List (Media × ProcessingDispatch)) : State :=
  { s with
    tables := s.tables.insert (PostsCall.posts call) created
    commits := s.commits ++ [⟨r, PostsCall.postId call, start, created.map Prod.fst⟩] }

end State

section Steps

variable (traffic : Traffic) (s : State)

/-- Create-post opens its transaction with the insert of its post. Add-media first reads the post,
without a lock. -/
def stepBegin (r : RequestId) : Option State :=
  match s.requests r, traffic.call r with
  | .idle, .createPost _ promoted => some (s.goto r (.inserting 0 [] promoted))
  | .idle, .addPostMedia postId _ =>
      some (s.goto r (match postOf s.tables postId with
        | none => .rejected postNotFound
        | some post => if post.deletedAt = none then .checked else .rejected postSoftDeleted))
  | _, _ => none

/-- `SELECT ... FOR UPDATE` waits for the lock of the post row. -/
def stepLock (r : RequestId) : Option State :=
  match s.requests r, traffic.call r with
  | .checked, .addPostMedia postId _ =>
      if (s.locks postId).isSome then none
      else some { s.goto r .locked with
        locks := if (postOf s.tables postId).isSome then Function.update s.locks postId (some r)
          else s.locks }
  | _, _ => none

/-- The aggregate sees the committed rows of this moment. -/
def stepAggregate (r : RequestId) : Option State :=
  match s.requests r, traffic.call r with
  | .locked, .addPostMedia postId promoted =>
      some (s.goto r (.inserting (s.tables.nextSortOrder postId) [] promoted))
  | _, _ => none

/-- `createWithDispatch` of the next upload. The foreign key needs a committed post or the one of
this transaction. -/
def stepInsert (r : RequestId) : Option State :=
  match s.requests r with
  | .inserting start created (upload :: pending) =>
      let call := traffic.call r
      let postId := PostsCall.postId call
      if (s.tables.posts ++ PostsCall.posts call).any (·.id = postId) then
        some (s.goto r (.inserting start (created ++
          [createWithDispatch (upload.input postId (start + created.length))]) pending))
      else none
  | _ => none

def stepCommit (r : RequestId) (fate : Fate) : Option State :=
  match s.requests r with
  | .inserting start created [] =>
      some (match fate with
        | .ok => (s.apply r (traffic.call r) start created).finish r .committed
        | .unacknowledged => (s.apply r (traffic.call r) start created).finish r .failed
        | .refused => s.finish r .failed)
  | _ => none

/-- A failed statement or a crash rolls the open transaction back. -/
def stepAbort (r : RequestId) : Option State :=
  match s.requests r with
  | .checked | .locked | .inserting _ _ _ => some (s.finish r .failed)
  | _ => none

/-- The read of `softDelete` or `restore`. A post that is already in the wanted state stays. -/
def stepRead (q : ToggleId) : Option State :=
  match s.toggles q with
  | .idle =>
      let updates := match postOf s.tables (traffic.toggle q).postId, traffic.toggle q with
        | some post, .softDelete _ => post.deletedAt.isNone
        | some post, .restore _ => post.deletedAt.isSome
        | none, _ => false
      some { s with toggles :=
        Function.update s.toggles q (if updates then .updating else .ended) }
  | _ => none

/-- The update by id waits for the lock of the post row. -/
def stepUpdate (q : ToggleId) (now : Time) : Option State :=
  match s.toggles q with
  | .updating =>
      let postId := (traffic.toggle q).postId
      let deletedAt := match traffic.toggle q with
        | .softDelete _ => some now
        | .restore _ => none
      if (s.locks postId).isSome then none
      else some { s with
        tables := { s.tables with
          posts := s.tables.posts.map fun post =>
            if post.id = postId then { post with deletedAt := deletedAt } else post }
        toggles := Function.update s.toggles q .ended }
  | _ => none

/-- One event of the requests and toggles. -/
def step : Event → Option State
  | .begin r => stepBegin traffic s r
  | .lock r => stepLock traffic s r
  | .aggregate r => stepAggregate traffic s r
  | .insert r => stepInsert traffic s r
  | .commit r fate => stepCommit traffic s r fate
  | .abort r => stepAbort s r
  | .read q => stepRead traffic s q
  | .update q now => stepUpdate traffic s q now

end Steps

/-- All calls start on empty tables. -/
def machine (traffic : Traffic) : Machine State Event where
  initial s := s.tables = ⟨[], [], []⟩ ∧ (∀ postId, s.locks postId = none) ∧
    (∀ r, s.requests r = .idle) ∧ (∀ q, s.toggles q = .idle) ∧ s.commits = []
  step := step traffic

end PostsMedia.Sharing
