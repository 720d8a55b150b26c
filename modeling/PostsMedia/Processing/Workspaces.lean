import Mathlib.Data.Rat.Defs
import PostsMedia.Domain.Path

namespace PostsMedia.Workspaces

open Paths Posix

inductive Failure
  | outsideRoot
  | outsideUploadRoot (message : Text)
  | rm (message : Text)
  deriving DecidableEq

/-- What a directory lists. -/
structure Entry where
  name : Text
  valid : Name signs name

/-- The text that `randomUUID` returns. -/
structure Uuid where
  text : Text
  length_eq : text.length = 36
  hexadecimal : ∀ unit ∈ text, unit = 0x2D ∨ (0x30 ≤ unit ∧ unit ≤ 0x39) ∨
    (0x61 ≤ unit ∧ unit ≤ 0x66)

section RequestId

/-- The class `[A-Za-z0-9-]`. -/
def isSafeUnit (unit : CodeUnit) : Bool :=
  (0x41 ≤ unit && unit ≤ 0x5A) || (0x61 ≤ unit && unit ≤ 0x7A) ||
    (0x30 ≤ unit && unit ≤ 0x39) || unit = 0x2D

/-- The pattern `/^[A-Za-z0-9-]{1,100}$/`. -/
def isSafeRequestId (id : Text) : Bool :=
  1 ≤ id.length && id.length ≤ 100 && id.all isSafeUnit

/-- `RequestIdMiddleware.use`. -/
def use (randomUUID : Uuid) : Option Text → Text
  | some incoming => if isSafeRequestId incoming then incoming else randomUUID.text
  | none => randomUUID.text

end RequestId

section RequestWorkspace

/-- `RequestWorkspaceService.workspacePath`. -/
def workspacePath (cwd : WorkingDirectory) (rootPath requestId : Text) : Text :=
  resolve cwd [rootPath, requestId]

def isWithinRoot (cwd : WorkingDirectory) (rootPath path : Text) : Bool :=
  let resolved := resolve cwd [path]
  resolved = rootPath || (rootPath ++ [signs.slash]).isPrefixOf resolved

/-- `UploadCleanupService.removeWorkspace`, with the rejection of `rm` if it rejects. -/
def removeWorkspace (cwd : WorkingDirectory) (rootPath : Text) (rm : Text → Except Text Unit)
    (path : Text) : Except Failure Unit :=
  if isWithinRoot cwd rootPath path then (rm path).mapError .rm
  else
    .error (.outsideUploadRoot
      (Text.ofString "Refusing to remove path outside the upload root: " ++ path))

end RequestWorkspace

section ProcessingWorkspace

def isContained (cwd : WorkingDirectory) (root path : Text) : Bool :=
  if isAbsolute path then
    let rel := relative cwd root (resolve cwd [path])
    rel ≠ [] && !signs.up.isPrefixOf rel && !decide (signs.up ++ [signs.slash] <:+: rel)
  else false

def contained (cwd : WorkingDirectory) (root : Text) (parts : List Text) :
    Except Failure Text :=
  let path := resolve cwd [join (root :: parts)]
  if isContained cwd root path then .ok path else .error .outsideRoot

def cleanup (cwd : WorkingDirectory) (root : Text) (rm : Text → Except Text Unit)
    (directory : Text) : Except Failure Unit :=
  if isContained cwd root directory then (rm directory).mapError .rm else .error .outsideRoot

/-- The loop of `cleanupStale` over what `readdir` lists. A path whose `stat` rejects has no
time. -/
def cleanupStale (cwd : WorkingDirectory) (root : Text) (stat : Text → Option ℚ)
    (rm : Text → Except Text Unit) (cutoff : ℚ) : List Entry → Nat → Except Failure Nat
  | [], removed => .ok removed
  | entry :: entries, removed => do
      let path ← contained cwd root [entry.name]
      match stat path with
      | some mtimeMs =>
          if mtimeMs < cutoff then
            (rm path).mapError .rm
            cleanupStale cwd root stat rm cutoff entries (removed + 1)
          else cleanupStale cwd root stat rm cutoff entries removed
      | none => cleanupStale cwd root stat rm cutoff entries removed

end ProcessingWorkspace

/-- A place strictly below another. -/
def Below (place target : List Text) : Prop := place <+: target ∧ target ≠ place

/-- What the guards promise for a root that was configured in one working directory. -/
structure Guarded (start cwd : WorkingDirectory) (configured : Text) (entries : List Entry) :
    Prop where
  within : ∀ path, isWithinRoot cwd (resolve start [configured]) path = true →
    placeOf start configured <+: placeOf cwd path
  removed : ∀ rm path, ¬ placeOf start configured <+: placeOf cwd path →
    ∃ message, removeWorkspace cwd (resolve start [configured]) rm path =
      .error (.outsideUploadRoot message)
  contained : ∀ parts path, contained cwd (resolve start [configured]) parts = .ok path →
    Below (placeOf start configured) (placeOf cwd path)
  cleaned : ∀ rm directory, ¬ Below (placeOf start configured) (placeOf cwd directory) →
    cleanup cwd (resolve start [configured]) rm directory = .error .outsideRoot
  requests : ∀ randomUUID incoming,
    let path := workspacePath cwd (resolve start [configured]) (use randomUUID incoming)
    placeOf cwd path = placeOf start configured ++ [use randomUUID incoming] ∧
      isWithinRoot cwd (resolve start [configured]) path = true
  listed : ∀ entry ∈ entries, ∃ path,
    Workspaces.contained cwd (resolve start [configured]) [entry.name] = .ok path
  swept : ∀ stat rm cutoff,
    cleanupStale cwd (resolve start [configured]) stat rm cutoff entries 0 ≠ .error .outsideRoot

section Guards

variable {cwd : WorkingDirectory} {place : List Text} {path name : Text}

/-- The text before a separator is the text of a place above. -/
theorem isWithinRoot_above (names : Names signs place)
    (within : isWithinRoot cwd (render signs place) path = true) :
    place <+: placeOf cwd path := by
  have target := placeOf_names cwd path
  unfold isWithinRoot at within
  rw [resolve_single] at within
  simp only [Bool.or_eq_true, decide_eq_true_eq] at within
  rcases within with same | before
  · rw [render_injective target names same]
  · exact prefix_of_render target names (List.isPrefixOf_iff_prefix.mp before)

/-- A way that does not begin with two dots leads below. -/
theorem isContained_below (names : Names signs place)
    (accepted : isContained cwd (render signs place) path = true) :
    Below place (placeOf cwd path) := by
  have target := placeOf_names cwd path
  unfold isContained at accepted
  rw [resolve_single, relative_render cwd names target] at accepted
  split_ifs at accepted
  simp only [ne_eq, Bool.and_eq_true, decide_eq_true_eq, Bool.not_eq_true'] at accepted
  obtain ⟨⟨way, inside⟩, _⟩ := accepted
  have below : place <+: placeOf cwd path := by
    by_contra outside
    obtain ⟨rest, leads⟩ := relative_outside signs outside
    rw [leads] at inside
    have begins : signs.up <+: [signs.slash].intercalate (signs.up :: rest) := by
      cases rest with
      | nil => simp
      | cons next rest =>
          rw [List.intercalate_cons_cons, List.append_assoc]
          exact List.prefix_append _ _
    rw [List.isPrefixOf_iff_prefix.mpr begins] at inside
    cases inside
  refine ⟨below, ?_⟩
  intro same
  have none : Paths.relative signs place place = [] := by
    simpa using relative_append signs place []
  rw [same, none] at way
  exact way rfl

theorem contained_name (names : Names signs place) (valid : Name signs name) :
    contained cwd (render signs place) [name] =
      if signs.up.isPrefixOf name then .error .outsideRoot
      else .ok (render signs (place ++ [name])) := by
  have longer := names.append valid
  have joined : join [render signs place, name] =
      normalize (render signs place ++ signs.slash :: name) := by
    have filled : render signs place ≠ [] := List.cons_ne_nil _ _
    simp [join, filled, valid.ne_nil]
  have leads : resolve cwd [join [render signs place, name]] =
      render signs (place ++ [name]) := by
    have absolute : isAbsolute (render signs place ++ signs.slash :: name) = true := by
      simp [isAbsolute, render]
    rw [resolve_single, joined, placeOf_normalize absolute, placeOf_absolute absolute, walk_append,
      walk_render names, valid.walk]
  have slashless : ¬ signs.up ++ [signs.slash] <:+: name := by
    intro inside
    exact valid.unslashed (inside.subset (by simp))
  have accepts : isContained cwd (render signs place) (render signs (place ++ [name])) =
      !signs.up.isPrefixOf name := by
    unfold isContained
    rw [if_pos (isAbsolute_render _), resolve_render cwd longer,
      relative_render cwd names longer, relative_append]
    simp [valid.ne_nil, slashless]
  unfold contained
  simp only [leads, accepts, Bool.not_eq_true']
  cases signs.up.isPrefixOf name <;> rfl

theorem isSafeRequestId_name {id : Text} (safe : isSafeRequestId id = true) : Name signs id := by
  unfold isSafeRequestId at safe
  simp only [Bool.and_eq_true, decide_eq_true_eq, List.all_eq_true] at safe
  obtain ⟨⟨filled, _⟩, units⟩ := safe
  have dotless : signs.dot ∉ id := fun member => absurd (units _ member) (by decide)
  constructor
  · rintro rfl
    simp at filled
  · rintro rfl
    simp at dotless
  · rintro rfl
    simp [Signs.up] at dotless
  · exact fun member => absurd (units _ member) (by decide)

theorem Uuid.safe (uuid : Uuid) : isSafeRequestId uuid.text = true := by
  unfold isSafeRequestId
  simp only [Bool.and_eq_true, decide_eq_true_eq, List.all_eq_true, uuid.length_eq]
  refine ⟨⟨by omega, by omega⟩, ?_⟩
  intro unit member
  unfold isSafeUnit
  simp only [Bool.or_eq_true, Bool.and_eq_true, decide_eq_true_eq]
  rcases uuid.hexadecimal unit member with hyphen | digit | ⟨low, high⟩
  · exact Or.inr hyphen
  · exact Or.inl (Or.inr digit)
  · exact Or.inl (Or.inl (Or.inr ⟨low, UInt16.le_trans high (by decide)⟩))

/-- A request id that is let through is the name of a directory. -/
theorem use_name (randomUUID : Uuid) (incoming : Option Text) :
    Name signs (use randomUUID incoming) := by
  unfold use
  split
  · split
    · rename_i safe
      exact isSafeRequestId_name safe
    · exact isSafeRequestId_name randomUUID.safe
  · exact isSafeRequestId_name randomUUID.safe

theorem workspacePath_eq (names : Names signs place) (valid : Name signs name) :
    workspacePath cwd (render signs place) name = render signs (place ++ [name]) := by
  have relative : isAbsolute name = false := by
    unfold isAbsolute
    rw [decide_eq_false_iff_not]
    intro first
    exact valid.unslashed (List.mem_of_head? first)
  have leads (here : List Text) : locate here (render signs place) = place := by
    rw [locate, if_pos (isAbsolute_render place), walk_render names]
  rw [workspacePath, resolve_eq, List.foldl_cons, List.foldl_cons, List.foldl_nil, leads, locate,
    if_neg (by simp [relative]), valid.walk]

/-- A child of a place is within it, unless the place is the root of the file system. -/
theorem isWithinRoot_child (names : Names signs place) (valid : Name signs name) :
    isWithinRoot cwd (render signs place) (render signs (place ++ [name])) = true ↔
      place ≠ [] := by
  have longer := names.append valid
  unfold isWithinRoot
  simp only [resolve_render cwd longer, Bool.or_eq_true, decide_eq_true_eq,
    List.isPrefixOf_iff_prefix]
  constructor
  · rintro within rfl
    rcases within with same | ⟨rest, same⟩
    · simpa using render_injective longer names same
    · apply valid.unslashed
      have split : signs.slash :: rest = name := by simpa [render] using same
      rw [← split]
      exact List.mem_cons_self
  · intro further
    rw [render_append further]
    exact Or.inr ⟨name, by simp⟩

/-- The sweep stops at no entry that is contained. -/
theorem cleanupStale_ne (root : Text) (stat : Text → Option ℚ) (rm : Text → Except Text Unit)
    (cutoff : ℚ) {entries : List Entry}
    (listed : ∀ entry ∈ entries, ∃ path, contained cwd root [entry.name] = .ok path)
    (removed : Nat) :
    cleanupStale cwd root stat rm cutoff entries removed ≠ .error .outsideRoot := by
  induction entries generalizing removed with
  | nil =>
      rw [cleanupStale]
      intro failed
      cases failed
  | cons entry entries ih =>
      have later := ih (fun other member => listed other (List.mem_cons_of_mem _ member))
      obtain ⟨path, accepted⟩ := listed entry List.mem_cons_self
      rw [cleanupStale, accepted]
      simp only [bind, Except.bind]
      split
      · split
        · cases rm path with
          | ok done => exact later _
          | error message => simp [Except.mapError]
        · exact later _
      · exact later _

variable {start : WorkingDirectory} {configured : Text} {entries : List Entry}

/-- Directly under the root of the file system no request has an accepted workspace. -/
theorem Guarded.further (guarded : Guarded start cwd configured entries) :
    placeOf start configured ≠ [] := by
  have names := placeOf_names start configured
  have uuid : Uuid := ⟨List.replicate 36 0x30, by simp, by simp⟩
  have valid := use_name uuid none
  have accepted := (guarded.requests uuid none).2
  rw [resolve_single, workspacePath_eq names valid] at accepted
  exact (isWithinRoot_child names valid).mp accepted

theorem Guarded.plain (guarded : Guarded start cwd configured entries) :
    ∀ entry ∈ entries, signs.up.isPrefixOf entry.name = false := by
  intro entry member
  obtain ⟨path, accepted⟩ := guarded.listed entry member
  rw [resolve_single, contained_name (placeOf_names start configured) entry.valid] at accepted
  rw [← Bool.not_eq_true]
  intro dotted
  rw [if_pos dotted] at accepted
  cases accepted

theorem listed_of_plain (plain : ∀ entry ∈ entries, signs.up.isPrefixOf entry.name = false) :
    ∀ entry ∈ entries, ∃ path,
      contained cwd (resolve start [configured]) [entry.name] = .ok path := by
  intro entry member
  rw [resolve_single, contained_name (placeOf_names start configured) entry.valid,
    plain entry member]
  exact ⟨_, rfl⟩

theorem guarded_of_plain (further : placeOf start configured ≠ [])
    (plain : ∀ entry ∈ entries, signs.up.isPrefixOf entry.name = false) :
    Guarded start cwd configured entries := by
  have names := placeOf_names start configured
  have root := resolve_single start configured
  have below (path : Text)
      (accepted : isContained cwd (resolve start [configured]) path = true) :
      Below (placeOf start configured) (placeOf cwd path) := by
    rw [root] at accepted
    exact isContained_below names accepted
  constructor
  · intro path within
    rw [root] at within
    exact isWithinRoot_above names within
  · intro rm path outside
    refine ⟨_, if_neg ?_⟩
    intro within
    rw [root] at within
    exact outside (isWithinRoot_above names within)
  · intro parts path accepted
    unfold contained at accepted
    dsimp only at accepted
    split_ifs at accepted with inside
    obtain rfl := Except.ok.inj accepted
    exact below _ inside
  · intro rm directory outside
    unfold cleanup
    rw [if_neg]
    intro accepted
    exact outside (below directory accepted)
  · intro randomUUID incoming
    have valid := use_name randomUUID incoming
    simp only [root, workspacePath_eq names valid, placeOf_render (names.append valid)]
    exact ⟨trivial, (isWithinRoot_child names valid).mpr further⟩
  · exact listed_of_plain plain
  · intro stat rm cutoff
    exact cleanupStale_ne _ stat rm cutoff (listed_of_plain plain) 0

/-- The guards keep their promise exactly when the root is not that of the file system and no
entry begins with two dots. -/
theorem guarded_iff (start cwd : WorkingDirectory) (configured : Text) (entries : List Entry) :
    Guarded start cwd configured entries ↔ placeOf start configured ≠ [] ∧
      ∀ entry ∈ entries, signs.up.isPrefixOf entry.name = false := by
  constructor
  · intro guarded
    exact ⟨guarded.further, guarded.plain⟩
  · rintro ⟨further, plain⟩
    exact guarded_of_plain further plain

end Guards

def service : WorkingDirectory := ⟨Text.ofString "/srv", by decide⟩

def dottedEntry : Entry := ⟨Text.ofString "..cache", by constructor <;> decide⟩

/-- An entry whose name begins with two dots stops the sweep. -/
theorem dottedEntry_refused : ¬ ∀ (start cwd : WorkingDirectory) (configured : Text)
    (entries : List Entry), isAbsolute configured = true → configured ≠ [signs.slash] →
      Guarded start cwd configured entries := by
  intro all
  have guarded := all service service (Text.ofString "/tmp/worker") [dottedEntry] (by decide)
    (by decide)
  obtain ⟨path, accepted⟩ := guarded.listed dottedEntry List.mem_cons_self
  rw [resolve_single, contained_name (placeOf_names _ _) dottedEntry.valid,
    if_pos (by decide)] at accepted
  cases accepted

end PostsMedia.Workspaces
