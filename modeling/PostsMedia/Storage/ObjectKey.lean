import Mathlib.Data.List.Basic

namespace PostsMedia

abbrev Bytes := List UInt8

/-- The address of one stored object. -/
structure ObjectRef where
  bucket : String
  objectKey : String
  deriving DecidableEq, Repr

structure StorageBuckets where
  originals : String
  processed : String
  temporary : String
  deriving DecidableEq, Repr

namespace StorageBuckets

variable (buckets : StorageBuckets)

def originalKey (postId mediaId canonicalExtension : String) : ObjectRef where
  bucket := buckets.originals
  objectKey := "posts/" ++ postId ++ "/" ++ mediaId ++ "/original." ++ canonicalExtension

def processedAttemptKey (postId mediaId processingProfile : String) (generation : Nat)
    (attemptId canonicalFilename : String) : ObjectRef where
  bucket := buckets.processed
  objectKey := "posts/" ++ postId ++ "/" ++ mediaId ++ "/" ++ processingProfile ++
    "/generations/" ++ toString generation ++ "/attempts/" ++ attemptId ++ "/" ++ canonicalFilename

def uploadStagingKey (requestId fileId : String) : ObjectRef where
  bucket := buckets.temporary
  objectKey := "uploads/" ++ requestId ++ "/" ++ fileId

def processingTempKey (mediaId : String) (generation : Nat)
    (attemptId canonicalVariantFilename : String) : ObjectRef where
  bucket := buckets.temporary
  objectKey := "processing/" ++ mediaId ++ "/" ++ toString generation ++ "/" ++ attemptId ++ "/" ++
    canonicalVariantFilename

end StorageBuckets

end PostsMedia
