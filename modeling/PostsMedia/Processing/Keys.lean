import PostsMedia.Library.Segments
import PostsMedia.Processing.Coherence

namespace PostsMedia.Processing

variable {deployment : Deployment} {run run' : Run} {artifact artifact' : ProcessedArtifact}

/-- The attempt id of a run is a segment of its keys. -/
def Run.Plain (run : Run) : Prop := '/' ∉ run.attemptId.toList

/-- A generation and an attempt id at the same place of two keys agree. -/
theorem attempt_of_tail (middle : List Char) {rest rest' : List Char} (plain : run.Plain)
    (plain' : run'.Plain)
    (same : (toString run.payload.generation).toList ++ '/' :: (middle ++
        (run.attemptId.toList ++ '/' :: rest)) =
      (toString run'.payload.generation).toList ++ '/' :: (middle ++
        (run'.attemptId.toList ++ '/' :: rest'))) :
    run.attemptId = run'.attemptId ∧ rest = rest' := by
  have special : ('/' : Char).isDigit = false := by decide
  obtain ⟨_, tails⟩ := Segments.split_inj (Segments.plain_toString special _)
    (Segments.plain_toString special _) same
  obtain ⟨ids, rests⟩ := Segments.split_inj plain plain' (List.append_cancel_left tails)
  exact ⟨String.toList_inj.mp ids, rests⟩

/-- A temporary key determines the attempt and the filename. -/
theorem tempRef_inj (same : SameMedia run.media run'.media) (plain : run.Plain)
    (plain' : run'.Plain)
    (keys : tempRef deployment run artifact = tempRef deployment run' artifact') :
    run.attemptId = run'.attemptId ∧ artifact.filename = artifact'.filename := by
  have texts := congrArg (fun ref => ref.objectKey.toList) keys
  simp only [tempRef, StorageBuckets.processingTempKey, same.id, String.toList_append,
    List.append_assoc, List.append_cancel_left_eq] at texts
  obtain ⟨ids, names⟩ := attempt_of_tail [] plain plain' texts
  exact ⟨ids, String.toList_inj.mp names⟩

/-- A final key determines the attempt and the filename. -/
theorem finalRef_inj (same : SameMedia run.media run'.media) (plain : run.Plain)
    (plain' : run'.Plain)
    (keys : finalRef deployment run artifact = finalRef deployment run' artifact') :
    run.attemptId = run'.attemptId ∧ artifact.filename = artifact'.filename := by
  have texts := congrArg (fun ref => ref.objectKey.toList) keys
  simp only [finalRef, StorageBuckets.processedAttemptKey, same.id, same.postId, same.profile,
    String.toList_append, List.append_assoc, List.append_cancel_left_eq] at texts
  obtain ⟨ids, names⟩ := attempt_of_tail "attempts/".toList plain plain' texts
  exact ⟨ids, String.toList_inj.mp names⟩

/-- Temporary keys and final keys start differently. -/
theorem tempRef_ne_finalRef :
    tempRef deployment run artifact ≠ finalRef deployment run' artifact' := by
  intro keys
  have texts := congrArg (fun ref => ref.objectKey.toList) keys
  simp [tempRef, finalRef, StorageBuckets.processingTempKey,
    StorageBuckets.processedAttemptKey] at texts

end PostsMedia.Processing
