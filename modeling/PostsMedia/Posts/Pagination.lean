import Mathlib.Algebra.Order.Ring.Unbundled.Rat
import Mathlib.Data.String.Basic
import PostsMedia.Domain.Number
import PostsMedia.Domain.Text
import PostsMedia.Library.Pages
import PostsMedia.Posts.Transactions

namespace PostsMedia

inductive PostSortField
  | createdAt
  | updatedAt
  | title
  deriving DecidableEq

inductive SortOrder
  | asc
  | desc
  deriving DecidableEq

def PostSortField.name : PostSortField → Text
  | .createdAt => .ofString "createdAt"
  | .updatedAt => .ofString "updatedAt"
  | .title => .ofString "title"

def SortOrder.name : SortOrder → Text
  | .asc => .ofString "asc"
  | .desc => .ofString "desc"

/-- The untrusted list query. -/
structure RawPostListQuery where
  page : Option Number := none
  pageSize : Option Number := none
  search : Option Text := none
  mediaType : Option MediaType := none
  processingStatus : Option ProcessingStatus := none
  createdFrom : Option Time := none
  createdTo : Option Time := none
  includeDeleted : Option Bool := none
  sortBy : Option Text := none
  sortOrder : Option Text := none

structure PostListQuery where
  page : ℕ
  pageSize : ℕ
  search : Option Text
  mediaType : Option MediaType
  processingStatus : Option ProcessingStatus
  createdFrom : Option Time
  createdTo : Option Time
  includeDeleted : Bool
  sortBy : PostSortField
  sortOrder : SortOrder

def defaultPage : ℕ := 1

def defaultPageSize : ℕ := 20

def maxPageSize : ℕ := 100

def normalizePage : Option Number → ℕ
  | some (.finite value) =>
      if !value.isInt || value < 1 then defaultPage else value.num.toNat
  | _ => defaultPage

def normalizePageSize : Option Number → ℕ
  | some (.finite value) =>
      if !value.isInt || value < 1 then defaultPageSize else min value.num.toNat maxPageSize
  | _ => defaultPageSize

def normalizeSortBy (sortBy : Option Text) : PostSortField :=
  ([.createdAt, .updatedAt, .title].find? fun field => some field.name == sortBy).getD .createdAt

def normalizeSortOrder (sortOrder : Option Text) : SortOrder :=
  ([.asc, .desc].find? fun order => some order.name == sortOrder).getD .desc

def normalizeSearch (search : Option Text) : Option Text :=
  (search.map Text.trim).filter (·.length ≠ 0)

def normalizePostListQuery (raw : RawPostListQuery) : PostListQuery where
  page := normalizePage raw.page
  pageSize := normalizePageSize raw.pageSize
  search := normalizeSearch raw.search
  mediaType := raw.mediaType
  processingStatus := raw.processingStatus
  createdFrom := raw.createdFrom
  createdTo := raw.createdTo
  includeDeleted := raw.includeDeleted.getD false
  sortBy := normalizeSortBy raw.sortBy
  sortOrder := normalizeSortOrder raw.sortOrder

/-- The committed tables with the database's text match without regard to case and its order of
titles. -/
structure Database where
  tables : Tables
  primaryKey : (tables.posts.map (·.id)).Nodup
  contains : String → Text → Bool
  collate : String → String → Bool
  collation : Pages.Preference collate

structure PostWithMedia where
  post : Post
  media : List Media

structure PostListResult where
  items : List PostWithMedia
  totalItems : ℕ

structure PostListPage where
  items : List PostWithMedia
  page : ℕ
  pageSize : ℕ
  totalItems : ℕ
  totalPages : ℕ

namespace PostsRepository

variable (db : Database) (query : PostListQuery)

def includeMedia (post : Post) : PostWithMedia where
  post := post
  media := (db.tables.media.filter (·.postId = post.id)).mergeSort
    fun first second => first.sortOrder ≤ second.sortOrder

/-- The filter of the list query on one row. -/
def buildWhere (post : Post) : Bool :=
  (query.includeDeleted || post.deletedAt.isNone) &&
  (query.search.all fun search =>
    db.contains post.title search || db.contains post.content search) &&
  (query.createdFrom.all (· ≤ post.createdAt)) && (query.createdTo.all (post.createdAt ≤ ·)) &&
  (query.mediaType.isNone && query.processingStatus.isNone ||
    db.tables.media.any fun media => media.postId = post.id &&
      query.mediaType.all (media.mediaType = ·) &&
      query.processingStatus.all (media.processingStatus = ·))

def matching : List Post := db.tables.posts.filter (buildWhere db query)

def sortKeyLe (field : PostSortField) (first second : Post) : Bool :=
  match field with
  | .createdAt => first.createdAt ≤ second.createdAt
  | .updatedAt => first.updatedAt ≤ second.updatedAt
  | .title => db.collate first.title second.title

/-- The one sort key of the list query. -/
def precedes (first second : Post) : Bool :=
  match query.sortOrder with
  | .asc => sortKeyLe db query.sortBy first second
  | .desc => sortKeyLe db query.sortBy second first

/-- The two queries of `list`. The database chooses the order of the sorted rows. -/
def list (sorted : List Post) : PostListResult where
  items := ((sorted.drop ((query.page - 1) * query.pageSize)).take query.pageSize).map
    (includeMedia db)
  totalItems := (matching db query).length

end PostsRepository

namespace PostsService

open PostsRepository (includeMedia matching precedes)

variable (db : Database) (raw : RawPostListQuery)

def list (sorted : List Post) : PostListPage :=
  let query := normalizePostListQuery raw
  let result := PostsRepository.list db query sorted
  { items := result.items
    page := query.page
    pageSize := query.pageSize
    totalItems := result.totalItems
    totalPages := (result.totalItems + query.pageSize - 1) / query.pageSize }

/-- The number of pages that every answer reports. -/
def totalPages : ℕ := (list db raw []).totalPages

/-- The answers to the pages of one query. The rows of each may be sorted in another way. -/
def pages (sorts : ℕ → List Post) : List PostListPage :=
  (List.range (totalPages db raw)).map fun p =>
    list db { raw with page := some (.finite (p + 1 : ℕ)) } (sorts p)

/-- The database answers each query with one of its sorts. -/
def Sorts (sorts : ℕ → List Post) : Prop :=
  ∀ p, Pages.SortOf (precedes db (normalizePostListQuery raw))
    (matching db (normalizePostListQuery raw)) (sorts p)

/-- The pages show every matching post once, in order, on full pages. -/
structure Partition (sorts : ℕ → List Post) : Prop where
  once : ((pages db raw sorts).flatMap (·.items)).Perm
    ((matching db (normalizePostListQuery raw)).map (includeMedia db))
  full : ∀ p, ∀ inside : p + 1 < (pages db raw sorts).length,
    (pages db raw sorts)[p].items.length = normalizePageSize raw.pageSize
  ordered : ((pages db raw sorts).flatMap (·.items)).Pairwise fun first second =>
    precedes db (normalizePostListQuery raw) first.post second.post = true

variable {db : Database} {raw : RawPostListQuery} {sorts : ℕ → List Post}

theorem normalizePage_natCast {n : ℕ} (positive : 1 ≤ n) :
    normalizePage (some (.finite n)) = n := by
  have atLeast : ¬ (n : ℚ) < 1 := by
    rw [Rat.not_lt]
    exact_mod_cast positive
  simp [normalizePage, Rat.isInt, atLeast]

theorem normalizePageSize_pos (pageSize : Option Number) : 0 < normalizePageSize pageSize := by
  unfold normalizePageSize
  split
  · rename_i value
    split
    · exact Nat.succ_pos 19
    · rename_i accepted
      simp only [Bool.or_eq_true, decide_eq_true_eq, not_or, Rat.not_lt] at accepted
      have positive : 0 < value.num := by
        rw [Rat.num_pos]
        exact lt_of_lt_of_le rfl accepted.2
      simp only [maxPageSize]
      omega
  · exact Nat.succ_pos 19

theorem sortKeyLe_preference (db : Database) (field : PostSortField) :
    Pages.Preference (PostsRepository.sortKeyLe db field) := by
  cases field with
  | createdAt => exact Pages.preference_nat.comap Post.createdAt
  | updatedAt => exact Pages.preference_nat.comap Post.updatedAt
  | title => exact db.collation.comap Post.title

theorem precedes_preference (db : Database) (query : PostListQuery) :
    Pages.Preference (precedes db query) := by
  have ascending := sortKeyLe_preference db query.sortBy
  unfold precedes
  cases query.sortOrder with
  | asc => exact ascending
  | desc => exact ascending.swap

/-- The pages of the answers are the pages of their sorts. -/
theorem pages_items (db : Database) (raw : RawPostListQuery) (sorts : ℕ → List Post) :
    (pages db raw sorts).map (·.items) =
      ((List.range (totalPages db raw)).map fun p =>
        Pages.page (normalizePageSize raw.pageSize) p (sorts p)).map
          (List.map (includeMedia db)) := by
  rw [pages, List.map_map, List.map_map]
  apply List.map_congr_left
  intro p _
  have skip : normalizePage (some (.finite (p + 1 : ℕ))) - 1 = p := by
    rw [normalizePage_natCast (Nat.le_add_left 1 p), Nat.add_sub_cancel]
  simp only [Function.comp_apply, list, PostsRepository.list, normalizePostListQuery, skip,
    Pages.page]

/-- All items together are the rows of all pages with their media. -/
theorem flatMap_items (db : Database) (raw : RawPostListQuery) (sorts : ℕ → List Post) :
    (pages db raw sorts).flatMap (·.items) =
      ((List.range (totalPages db raw)).map fun p =>
        Pages.page (normalizePageSize raw.pageSize) p (sorts p)).flatten.map (includeMedia db) := by
  rw [List.flatMap_def, pages_items, List.map_flatten]

/-- Every post is on one page, for every order that the database may choose for ties, exactly
when no ties cross the end of a page. -/
theorem pages_partition (db : Database) (raw : RawPostListQuery) :
    (∀ sorts, Sorts db raw sorts → Partition db raw sorts) ↔
      Pages.TiesFit (precedes db (normalizePostListQuery raw))
        (matching db (normalizePostListQuery raw)) (normalizePageSize raw.pageSize) := by
  have order := precedes_preference db (normalizePostListQuery raw)
  have positive := normalizePageSize_pos raw.pageSize
  constructor
  · intro partitions
    by_contra misfit
    have distinct : (matching db (normalizePostListQuery raw)).Nodup :=
      (List.Nodup.of_map _ db.primaryKey).filter _
    obtain ⟨sorts, sort, lost⟩ := Pages.exists_repetition order distinct positive misfit
    have once := (partitions sorts sort).once.map PostWithMedia.post
    rw [flatMap_items, List.map_map, List.map_map] at once
    simp only [Function.comp_def, includeMedia, List.map_id'] at once
    exact lost once
  · intro fit sorts sort
    constructor
    · rw [flatMap_items]
      exact (Pages.flatten_perm order sort fit positive).map _
    · intro p inner
      have count : (pages db raw sorts).length = totalPages db raw := by simp [pages]
      have inside : p < ((pages db raw sorts).map (·.items)).length := by
        rw [List.length_map]
        omega
      have shown := List.getElem_of_eq (pages_items db raw sorts) inside
      simp only [List.getElem_map, List.getElem_range] at shown
      rw [shown, List.length_map]
      apply Pages.length_page positive
      rw [count] at inner
      rw [(sort p).perm.length_eq]
      exact inner
    · rw [flatMap_items, List.pairwise_map]
      exact Pages.flatten_ordered order sort _

/-- Two posts of the same millisecond. -/
def twins : Database where
  tables := {
    posts := ["post-0", "post-1"].map fun id => { id, title := id, content := "", createdAt := 7,
                                                  updatedAt := 7 }
    media := []
    dispatches := [] }
  primaryKey := by decide
  contains _ _ := false
  collate first second := first ≤ second
  collation := {
    total _ _ := by simpa using le_total _ _
    trans _ _ _ := by simpa using le_trans }

/-- The newest posts, one on each page. -/
def single : RawPostListQuery where
  pageSize := some (.finite 1)

/-- The database sorts the twins one way for the first page and the other way for the second. -/
def turned (p : ℕ) : List Post :=
  if p = 0 then twins.tables.posts else twins.tables.posts.reverse

theorem turned_sorts : Sorts twins single turned := by
  have rows : matching twins (normalizePostListQuery single) = twins.tables.posts := by rfl
  intro p
  rw [rows]
  unfold turned
  split
  · exact ⟨.refl _, by decide⟩
  · exact ⟨List.reverse_perm _, by decide⟩

/-- The first of the twins is on both pages and the second one on none. -/
theorem twins_repeated : ¬ ∀ db raw sorts, Sorts db raw sorts → Partition db raw sorts := by
  intro partition
  have once := (partition twins single turned turned_sorts).once.map (·.post.id)
  rw [flatMap_items] at once
  have size : normalizePageSize single.pageSize = 1 := by decide +kernel
  have count : totalPages twins single = 2 := by decide +kernel
  rw [size, count] at once
  revert once
  decide

end PostsService

end PostsMedia
