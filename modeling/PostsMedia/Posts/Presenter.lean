import PostsMedia.Media.Presenter
import PostsMedia.Posts.Transactions

namespace PostsMedia

inductive PostAggregateStatus
  | noMedia
  | pending
  | processing
  | partiallyCompleted
  | completed
  | failed
  deriving DecidableEq, Repr

def PostAggregateStatus.text : PostAggregateStatus → String
  | .noMedia => "NO_MEDIA"
  | .pending => "PENDING"
  | .processing => "PROCESSING"
  | .partiallyCompleted => "PARTIALLY_COMPLETED"
  | .completed => "COMPLETED"
  | .failed => "FAILED"

/-- The status of a post is computed from its media and never stored. -/
def calculatePostAggregateStatus (statuses : List ProcessingStatus) : PostAggregateStatus :=
  if statuses.length = 0 then .noMedia
  else if statuses.any (· = .processing) then .processing
  else if statuses.all (· = .pending) then .pending
  else if statuses.all (· = .completed) then .completed
  else if statuses.all (· = .failed) then .failed
  else .partiallyCompleted

section Aggregate

variable {statuses : List ProcessingStatus}

/-- The statuses behind each aggregate status. -/
def AggregateOf (statuses : List ProcessingStatus) : PostAggregateStatus → Prop
  | .noMedia => statuses = []
  | .processing => .processing ∈ statuses
  | .pending => statuses ≠ [] ∧ ∀ status ∈ statuses, status = .pending
  | .completed => statuses ≠ [] ∧ ∀ status ∈ statuses, status = .completed
  | .failed => statuses ≠ [] ∧ ∀ status ∈ statuses, status = .failed
  | .partiallyCompleted => .processing ∉ statuses ∧
      ∃ first ∈ statuses, ∃ second ∈ statuses, first ≠ second

theorem aggregateOf_calculate (statuses : List ProcessingStatus) :
    AggregateOf statuses (calculatePostAggregateStatus statuses) := by
  have other {status : ProcessingStatus} (mixed : ¬ statuses.all (· = status) = true) :
      ∃ second ∈ statuses, second ≠ status := by
    simpa using mixed
  unfold calculatePostAggregateStatus
  split_ifs with empty processing pending completed failed
  · exact List.length_eq_zero_iff.mp empty
  · simpa [AggregateOf] using processing
  · exact ⟨fun none => empty (by rw [none]; rfl), by simpa using pending⟩
  · exact ⟨fun none => empty (by rw [none]; rfl), by simpa using completed⟩
  · exact ⟨fun none => empty (by rw [none]; rfl), by simpa using failed⟩
  · have absent : .processing ∉ statuses := by simpa using processing
    obtain ⟨first, member⟩ := List.exists_mem_of_length_pos (Nat.pos_of_ne_zero empty)
    refine ⟨absent, first, member, ?_⟩
    have second : ∃ second ∈ statuses, second ≠ first := by
      cases first with
      | pending => exact other pending
      | processing => exact absurd member absent
      | completed => exact other completed
      | failed => exact other failed
    obtain ⟨second, member', different⟩ := second
    exact ⟨second, member', different.symm⟩

/-- Statuses that are all the same have no second description. -/
theorem AggregateOf.unique {aggregate aggregate' : PostAggregateStatus}
    (described : AggregateOf statuses aggregate) (described' : AggregateOf statuses aggregate') :
    aggregate = aggregate' := by
  cases statuses with
  | nil => cases aggregate <;> cases aggregate' <;> simp_all [AggregateOf]
  | cons first rest =>
      have member : first ∈ first :: rest := List.mem_cons_self
      cases aggregate <;> cases aggregate' <;> simp only [AggregateOf] at * <;> grind

/-- Exactly one of the six descriptions fits any media, and the computed status is that one. -/
theorem calculatePostAggregateStatus_eq_iff (aggregate : PostAggregateStatus) :
    calculatePostAggregateStatus statuses = aggregate ↔ AggregateOf statuses aggregate := by
  constructor
  · rintro rfl
    exact aggregateOf_calculate statuses
  · exact (aggregateOf_calculate statuses).unique

end Aggregate

/-- The year, the month and the day of a number of days since 1970 in the Gregorian calendar. The
computation counts years from March. -/
def civilDate (days : Nat) : Nat × Nat × Nat :=
  let shifted := days + 719468
  let era := shifted / 146097
  let dayOfEra := shifted % 146097
  let yearOfEra := (dayOfEra - dayOfEra / 1460 + dayOfEra / 36524 - dayOfEra / 146096) / 365
  let dayOfYear := dayOfEra - (365 * yearOfEra + yearOfEra / 4 - yearOfEra / 100)
  let month := (5 * dayOfYear + 2) / 153
  let day := dayOfYear - (153 * month + 2) / 5 + 1
  let year := yearOfEra + era * 400
  if month < 10 then (year, month + 3, day) else (year + 1, month - 9, day)

/-- A number with leading zeros. -/
def padded (width value : Nat) : String :=
  let digits := toString value
  String.ofList (List.replicate (width - digits.length) '0') ++ digits

/-- The method `toISOString` of a date. -/
def toISOString (time : Time) : String :=
  let (year, month, day) := civilDate (time / 86400000)
  let millis := time % 86400000
  let years := if year ≤ 9999 then padded 4 year else "+" ++ padded 6 year
  s!"{years}-{padded 2 month}-{padded 2 day}T{padded 2 (millis / 3600000)}:" ++
    s!"{padded 2 (millis / 60000 % 60)}:{padded 2 (millis / 1000 % 60)}.{padded 3 (millis % 1000)}Z"

example : toISOString 1709210096007 = "2024-02-29T12:34:56.007Z" := by decide +kernel

structure MediaSummaryDto where
  id : String
  sortOrder : Nat
  mediaType : String
  processingStatus : String
  progress : Nat

structure PostLinksDto where
  self : String

structure PostResponseDto where
  id : String
  title : String
  content : String
  createdAt : String
  updatedAt : String
  deletedAt : Option String
  aggregateStatus : String
  mediaCount : Nat
  media : List MediaSummaryDto
  links : PostLinksDto

def presentMediaSummary (media : Media) : MediaSummaryDto where
  id := media.id
  sortOrder := media.sortOrder
  mediaType := media.mediaType.text
  processingStatus := media.processingStatus.text
  progress := media.progress

def presentPost (post : Post) (media : List Media) : PostResponseDto where
  id := post.id
  title := post.title
  content := post.content
  createdAt := toISOString post.createdAt
  updatedAt := toISOString post.updatedAt
  deletedAt := post.deletedAt.map toISOString
  aggregateStatus := (calculatePostAggregateStatus (media.map (·.processingStatus))).text
  mediaCount := media.length
  media := media.map presentMediaSummary
  links := { self := s!"/api/posts/{post.id}" }

theorem PostAggregateStatus.text_injective : Function.Injective PostAggregateStatus.text := by
  intro aggregate aggregate' same
  cases aggregate <;> cases aggregate' <;> first | rfl | exact absurd same (by decide)

end PostsMedia
