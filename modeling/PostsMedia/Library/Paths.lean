import Mathlib.Data.List.Infix

namespace Paths

/-- The separator and the dot of an alphabet. -/
structure Signs (α : Type) where
  slash : α
  dot : α
  apart : slash ≠ dot

variable {α : Type} [DecidableEq α] (signs : Signs α)

/-- The segment that leads to the parent. -/
def Signs.up : List α := [signs.dot, signs.dot]

/-- A name that a directory can list. -/
structure Name (name : List α) : Prop where
  ne_nil : name ≠ []
  ne_here : name ≠ [signs.dot]
  ne_up : name ≠ signs.up
  unslashed : signs.slash ∉ name

/-- A place is the list of the names that lead to it from the root. -/
def Names (place : List (List α)) : Prop := ∀ name ∈ place, Name signs name

/-- Where one more segment leads. The root is its own parent. -/
def enter (place : List (List α)) (segment : List α) : List (List α) :=
  if segment = [] ∨ segment = [signs.dot] then place
  else if segment = signs.up then place.dropLast
  else place ++ [segment]

/-- Where a path leads from a place. -/
def walk (place : List (List α)) (path : List α) : List (List α) :=
  (path.splitOn signs.slash).foldl (enter signs) place

/-- The normal path of a place. -/
def render (place : List (List α)) : List α := signs.slash :: [signs.slash].intercalate place

/-- The segments that lead from one place to another. -/
def relative : List (List α) → List (List α) → List (List α)
  | [], target => target
  | _ :: start, [] => List.replicate (start.length + 1) signs.up
  | name :: start, other :: target =>
      if name = other then relative start target
      else List.replicate (start.length + 1) signs.up ++ other :: target

variable {signs} {place start target : List (List α)} {path rest name : List α}

theorem Name.enter (valid : Name signs name) (place : List (List α)) :
    enter signs place name = place ++ [name] := by
  simp [Paths.enter, valid.ne_nil, valid.ne_here, valid.ne_up]

omit [DecidableEq α] in
theorem Names.append (names : Names signs place) (valid : Name signs name) :
    Names signs (place ++ [name]) := by
  intro other member
  rcases List.mem_append.mp member with old | new
  · exact names other old
  · rw [List.mem_singleton.mp new]
    exact valid

/-- A segment after a slash continues the walk. -/
theorem walk_append (place : List (List α)) (path rest : List α) :
    walk signs place (path ++ signs.slash :: rest) = walk signs (walk signs place path) rest := by
  rw [walk, List.splitOn_append_cons_self, List.foldl_append, walk, walk]

@[simp] theorem walk_nil (place : List (List α)) : walk signs place [] = place := by
  simp [walk, enter]

theorem walk_slash (place : List (List α)) (path : List α) :
    walk signs place (path ++ [signs.slash]) = walk signs place path := by
  rw [walk_append, walk_nil]

theorem Name.walk (valid : Name signs name) (place : List (List α)) :
    walk signs place name = place ++ [name] := by
  rw [Paths.walk, List.splitOn_eq_singleton valid.unslashed]
  exact valid.enter place

theorem not_mem_splitOn (signs : Signs α) (path : List α) :
    ∀ segment ∈ path.splitOn signs.slash, signs.slash ∉ segment := by
  induction path with
  | nil => simp
  | cons unit path ih =>
      rw [List.splitOn_cons_eq_if_modifyHead]
      split
      · simpa using ih
      · rename_i other
        cases segments : path.splitOn signs.slash with
        | nil => simp
        | cons first later =>
            rw [segments] at ih
            have differs : signs.slash ≠ unit := by
              intro same
              simp [same] at other
            simp only [List.modifyHead_cons, List.mem_cons, forall_eq_or_imp] at ih ⊢
            exact ⟨not_or.mpr ⟨differs, ih.1⟩, ih.2⟩

theorem Names.enter {segment : List α} (names : Names signs place)
    (unslashed : signs.slash ∉ segment) : Names signs (enter signs place segment) := by
  unfold Paths.enter
  split_ifs with still up
  · exact names
  · intro name member
    exact names name (List.mem_of_mem_dropLast member)
  · rw [not_or] at still
    exact names.append ⟨still.1, still.2, up, unslashed⟩

/-- A walk leads to a place. -/
theorem Names.walk (names : Names signs place) (path : List α) :
    Names signs (walk signs place path) := by
  rw [Paths.walk]
  have unslashed := not_mem_splitOn signs path
  revert unslashed
  induction path.splitOn signs.slash generalizing place with
  | nil =>
      intro _
      exact names
  | cons segment segments ih =>
      intro unslashed
      rw [List.foldl_cons]
      apply ih
      · exact names.enter (unslashed segment List.mem_cons_self)
      · intro other member
        exact unslashed other (List.mem_cons_of_mem _ member)

theorem splitOn_render (names : Names signs place) (further : place ≠ []) :
    (render signs place).splitOn signs.slash = [] :: place := by
  have split : ([signs.slash].intercalate place).splitOn signs.slash = place :=
    List.splitOn_intercalate _ (fun name member => (names name member).unslashed) further
  have first := List.splitOn_append_cons_self (a := signs.slash) []
    ([signs.slash].intercalate place)
  rw [List.nil_append, split, List.splitOn_nil] at first
  exact first

theorem foldl_enter (names : Names signs place) (start : List (List α)) :
    place.foldl (enter signs) start = start ++ place := by
  induction place generalizing start with
  | nil => simp
  | cons name place ih =>
      have valid := names name List.mem_cons_self
      rw [List.foldl_cons, valid.enter,
        ih (fun other member => names other (List.mem_cons_of_mem _ member)), List.append_assoc]
      rfl

/-- The normal path of a place leads to it. -/
theorem walk_render (names : Names signs place) : walk signs [] (render signs place) = place := by
  by_cases further : place = []
  · subst further
    exact walk_slash [] []
  · rw [walk, splitOn_render names further, List.foldl_cons]
    exact foldl_enter names []

omit [DecidableEq α] in
theorem render_append (further : place ≠ []) (name : List α) :
    render signs (place ++ [name]) = render signs place ++ signs.slash :: name := by
  unfold render
  rw [List.cons_append]
  congr 1
  induction place with
  | nil => exact absurd rfl further
  | cons first place ih =>
      cases place with
      | nil => simp
      | cons second place =>
          have later := ih (List.cons_ne_nil _ _)
          rw [List.cons_append] at later ⊢
          rw [List.cons_append, List.intercalate_cons_cons, List.intercalate_cons_cons,
            ← List.cons_append, List.cons_append, later]
          simp

/-- The text of a place with a slash begins only the paths of what lies below. -/
theorem prefix_of_render (names : Names signs target)
    (starts : Names signs start) (before : render signs start ++ [signs.slash] <+:
      render signs target) : start <+: target := by
  by_cases root : start = []
  · rw [root]
    exact List.nil_prefix
  · obtain ⟨rest, same⟩ := before
    rw [List.append_assoc, List.singleton_append] at same
    have split := congrArg (List.splitOn signs.slash) same
    rw [List.splitOn_append_cons_self, splitOn_render starts root] at split
    by_cases further : target = []
    · subst further
      obtain ⟨first, place, rfl⟩ := List.exists_cons_of_ne_nil root
      have valid := starts first List.mem_cons_self
      have segments := List.splitOn_append_cons_self (a := signs.slash) [] []
      simp only [List.nil_append, List.splitOn_nil] at segments
      rw [render, List.intercalate_nil, segments] at split
      simp [valid.ne_nil] at split
    · rw [splitOn_render names further] at split
      rw [List.cons_append, List.cons.injEq] at split
      exact ⟨_, split.2⟩

theorem relative_append (signs : Signs α) (start rest : List (List α)) :
    relative signs start (start ++ rest) = rest := by
  induction start with
  | nil => cases rest <;> rfl
  | cons name start ih =>
      rw [List.cons_append, relative, if_pos rfl]
      exact ih

/-- The way to a place that does not lie below begins at the parent. -/
theorem relative_outside (signs : Signs α) (outside : ¬ start <+: target) :
    ∃ rest, relative signs start target = signs.up :: rest := by
  induction start generalizing target with
  | nil => exact absurd List.nil_prefix outside
  | cons name start ih =>
      cases target with
      | nil => exact ⟨_, by rw [relative, List.replicate_succ]⟩
      | cons other target =>
          rw [relative]
          split_ifs with same
          · subst same
            apply ih
            intro below
            exact outside (List.cons_prefix_cons.mpr ⟨rfl, below⟩)
          · exact ⟨_, by rw [List.replicate_succ, List.cons_append]⟩

end Paths
