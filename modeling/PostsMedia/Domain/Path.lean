import PostsMedia.Domain.Text
import PostsMedia.Library.Paths

namespace PostsMedia.Posix

open Paths

/-- The separator of POSIX paths and the dot. -/
def signs : Signs CodeUnit := ⟨0x2F, 0x2E, by decide⟩

def isAbsolute (path : Text) : Bool := path.head? = some signs.slash

/-- What `process.cwd` returns. -/
structure WorkingDirectory where
  path : Text
  absolute : isAbsolute path = true

/-- One segment of `normalizeString`. Only a relative path keeps a leading `..`. -/
def normalizeSegment (allowAboveRoot : Bool) (kept : List Text) (segment : Text) : List Text :=
  if segment = [] ∨ segment = [signs.dot] then kept
  else if segment = signs.up then
    if kept = [] ∨ kept.getLast? = some signs.up then
      if allowAboveRoot then kept ++ [signs.up] else kept
    else kept.dropLast
  else kept ++ [segment]

def normalizeString (path : Text) (allowAboveRoot : Bool) : Text :=
  [signs.slash].intercalate
    ((path.splitOn signs.slash).foldl (normalizeSegment allowAboveRoot) [])

def normalize (path : Text) : Text :=
  if path = [] then [signs.dot]
  else
    let trailing := path.getLast? = some signs.slash
    let normalized := normalizeString path !isAbsolute path
    if normalized = [] then
      if isAbsolute path then [signs.slash]
      else if trailing then [signs.dot, signs.slash] else [signs.dot]
    else
      let normalized := if trailing then normalized ++ [signs.slash] else normalized
      if isAbsolute path then signs.slash :: normalized else normalized

def join (parts : List Text) : Text :=
  normalize ([signs.slash].intercalate (parts.filter (· ≠ [])))

/-- The arguments of `resolve` from the last to the first absolute one. -/
def resolvedPath (cwd : WorkingDirectory) : List Text → Text → Text
  | [], resolved => cwd.path ++ signs.slash :: resolved
  | part :: parts, resolved =>
      if part = [] then resolvedPath cwd parts resolved
      else if isAbsolute part then part ++ signs.slash :: resolved
      else resolvedPath cwd parts (part ++ signs.slash :: resolved)

/-- The working directory is absolute, and so is the result. -/
def resolve (cwd : WorkingDirectory) (parts : List Text) : Text :=
  signs.slash :: normalizeString (resolvedPath cwd parts.reverse []) false

/-- The names in a normal path. -/
def segments (path : Text) : List Text := (path.splitOn signs.slash).filter (· ≠ [])

def relative (cwd : WorkingDirectory) (start target : Text) : Text :=
  if start = target then []
  else
    let start := resolve cwd [start]
    let target := resolve cwd [target]
    if start = target then []
    else [signs.slash].intercalate (Paths.relative signs (segments start) (segments target))

/-- Where a path leads from a place. -/
def locate (place : List Text) (path : Text) : List Text :=
  walk signs (if isAbsolute path then [] else place) path

/-- The place of a path. -/
def placeOf (cwd : WorkingDirectory) (path : Text) : List Text :=
  locate (walk signs [] cwd.path) path

variable {cwd : WorkingDirectory} {place start target : List Text} {path name : Text}

theorem locate_names (names : Names signs place) (path : Text) :
    Names signs (locate place path) := by
  unfold locate
  split
  · exact Names.walk (fun _ member => by cases member) path
  · exact names.walk path

theorem placeOf_names (cwd : WorkingDirectory) (path : Text) :
    Names signs (placeOf cwd path) := by
  apply locate_names
  exact Names.walk (fun _ member => by cases member) cwd.path

/-- No name is above the root. -/
theorem normalizeSegment_eq (names : Names signs place) (segment : Text) :
    normalizeSegment false place segment = enter signs place segment := by
  unfold normalizeSegment enter
  simp only [Bool.false_eq_true, if_false]
  split_ifs with still up stuck
  · rfl
  · rcases stuck with root | last
    · simp [root]
    · exact absurd rfl (names _ (List.mem_of_getLast? last)).ne_up
  · rfl
  · rfl

theorem normalizeString_eq (path : Text) :
    normalizeString path false = [signs.slash].intercalate (walk signs [] path) := by
  have folds (parts : List Text) : ∀ place : List Text, Names signs place →
      (∀ part ∈ parts, signs.slash ∉ part) →
        parts.foldl (normalizeSegment false) place = parts.foldl (enter signs) place := by
    induction parts with
    | nil =>
        intro _ _ _
        rfl
    | cons part parts ih =>
        intro place names unslashed
        rw [List.foldl_cons, List.foldl_cons, normalizeSegment_eq names]
        apply ih
        · exact names.enter (unslashed part List.mem_cons_self)
        · intro other member
          exact unslashed other (List.mem_cons_of_mem _ member)
  rw [normalizeString, walk,
    folds _ [] (fun _ member => by cases member) (not_mem_splitOn signs path)]

/-- `resolve` follows its arguments from the working directory. -/
theorem resolve_eq (cwd : WorkingDirectory) (parts : List Text) :
    resolve cwd parts = render signs (parts.foldl locate (walk signs [] cwd.path)) := by
  have follows (parts : List Text) : ∀ path : Text,
      walk signs [] (resolvedPath cwd parts path) =
        walk signs (parts.reverse.foldl locate (walk signs [] cwd.path)) path := by
    induction parts with
    | nil =>
        intro path
        exact walk_append [] cwd.path path
    | cons part parts ih =>
        intro path
        rw [resolvedPath, List.reverse_cons, List.foldl_append]
        simp only [List.foldl_cons, List.foldl_nil]
        split_ifs with empty absolute
        · subst empty
          rw [ih]
          simp [locate, isAbsolute]
        · rw [walk_append, locate, if_pos absolute]
        · rw [ih, walk_append, locate, if_neg absolute]
  rw [resolve, normalizeString_eq, follows, List.reverse_reverse, walk_nil]
  rfl

theorem isAbsolute_render (place : List Text) : isAbsolute (render signs place) = true := by
  simp [isAbsolute, render]

theorem placeOf_absolute (absolute : isAbsolute path = true) :
    placeOf cwd path = walk signs [] path := by
  rw [placeOf, locate, if_pos absolute]

theorem placeOf_render (names : Names signs place) :
    placeOf cwd (render signs place) = place := by
  rw [placeOf_absolute (isAbsolute_render place), walk_render names]

theorem resolve_single (cwd : WorkingDirectory) (path : Text) :
    resolve cwd [path] = render signs (placeOf cwd path) := by
  rw [resolve_eq, List.foldl_cons, List.foldl_nil, placeOf]

/-- A normal path is its own resolution. -/
theorem resolve_render (cwd : WorkingDirectory) (names : Names signs place) :
    resolve cwd [render signs place] = render signs place := by
  rw [resolve_single, placeOf_render names]

theorem segments_render (names : Names signs place) :
    segments (render signs place) = place := by
  by_cases further : place = []
  · subst further
    decide
  · rw [segments, splitOn_render names further, List.filter_cons_of_neg (by simp),
      List.filter_eq_self]
    intro name member
    simpa using (names name member).ne_nil

theorem render_injective (starts : Names signs start) (names : Names signs target)
    (same : render signs start = render signs target) : start = target := by
  rw [← walk_render starts, same, walk_render names]

theorem relative_render (cwd : WorkingDirectory) (starts : Names signs start)
    (names : Names signs target) :
    relative cwd (render signs start) (render signs target) =
      [signs.slash].intercalate (Paths.relative signs start target) := by
  have none : Paths.relative signs target target = [] := by
    simpa using relative_append signs target []
  unfold relative
  simp only [resolve_render cwd starts, resolve_render cwd names, segments_render starts,
    segments_render names]
  split_ifs with same
  · rw [render_injective starts names same, none]
    rfl
  · rfl

theorem isAbsolute_normalize (absolute : isAbsolute path = true) :
    isAbsolute (normalize path) = true := by
  have ne_nil : path ≠ [] := by
    rintro rfl
    cases absolute
  unfold normalize
  simp only [if_neg ne_nil, absolute, if_true]
  split <;> rfl

/-- `normalize` keeps where an absolute path leads. -/
theorem placeOf_normalize (absolute : isAbsolute path = true) :
    placeOf cwd (normalize path) = placeOf cwd path := by
  rw [placeOf_absolute absolute, placeOf_absolute (isAbsolute_normalize absolute)]
  have names : Names signs (walk signs [] path) :=
    Names.walk (fun _ member => by cases member) path
  have ne_nil : path ≠ [] := by
    rintro rfl
    cases absolute
  have leads := walk_render names
  rw [render, ← normalizeString_eq] at leads
  unfold normalize
  simp only [if_neg ne_nil, absolute, Bool.not_true, if_true]
  split_ifs with root trailing
  · rw [root] at leads
    exact leads
  · rw [← List.cons_append, walk_slash]
    exact leads
  · exact leads

end PostsMedia.Posix
