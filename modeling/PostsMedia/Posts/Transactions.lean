import PostsMedia.Idempotency.Record
import PostsMedia.Media.Repository

namespace PostsMedia

structure Post where
  id : String
  title : String
  content : String
  createdAt : Time
  updatedAt : Time
  deletedAt : Option Time := none

/-- The domain tables that the upload transactions write. -/
structure Tables where
  posts : List Post
  media : List Media
  dispatches : List ProcessingDispatch

/-- The inserts of one transaction. -/
def Tables.insert (tables : Tables) (posts : List Post)
    (created : List (Media × ProcessingDispatch)) : Tables where
  posts := tables.posts ++ posts
  media := tables.media ++ created.map Prod.fst
  dispatches := tables.dispatches ++ created.map Prod.snd

/-- `tx.media.aggregate` reads the greatest sort order of a post. -/
def Tables.maxSortOrder (tables : Tables) (postId : String) : Option Nat :=
  ((tables.media.filter (·.postId = postId)).map (·.sortOrder)).max?

/-- The next free sort order of a post. -/
def Tables.nextSortOrder (tables : Tables) (postId : String) : Nat :=
  match tables.maxSortOrder postId with
  | some greatest => greatest + 1
  | none => 0

/-- The domain transaction of create-post inserts one post and all its media. -/
def createPostTransaction (presentPost : Post → List Media → Json) (post : Post)
    (promoted : List PromotedUpload) (_ : Tables) :
    Option ((Tables → Tables) × Idempotency.IdempotentOutcome) :=
  let created := createAllWithDispatch post.id 0 promoted
  some ((·.insert [post] created),
    { responseStatus := 201
      responseBody := presentPost post (created.map Prod.fst)
      targetResourceId := some post.id })

/-- The domain transaction of add-media appends its media after the present ones. The foreign key
needs the post. -/
def addPostMediaTransaction (present : List Media → Json) (postId : String)
    (promoted : List PromotedUpload) (tables : Tables) :
    Option ((Tables → Tables) × Idempotency.IdempotentOutcome) :=
  let startingSortOrder := match tables.maxSortOrder postId with
    | some greatest => greatest + 1
    | none => 0
  let created := createAllWithDispatch postId startingSortOrder promoted
  if tables.posts.any (·.id = postId) then
    some ((·.insert [] created),
      { responseStatus := 201
        responseBody := present (created.map Prod.fst)
        targetResourceId := some postId })
  else none

end PostsMedia
