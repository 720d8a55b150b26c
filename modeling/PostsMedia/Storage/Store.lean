import Mathlib.Logic.Function.Basic
import PostsMedia.Storage.ObjectKey

namespace PostsMedia

/-- The object storage as one call sees it, and the objects that the call wrote and that are still
there. -/
structure Store where
  objects : ObjectRef → Option Bytes
  written : ObjectRef → Bool

namespace Store

variable (store : Store)

def put (ref : ObjectRef) (content : Bytes) : Store where
  objects := Function.update store.objects ref (some content)
  written := Function.update store.written ref true

/-- The server-side copy takes the bytes that are there. -/
def copy (source destination : ObjectRef) : Store :=
  match store.objects source with
  | some content => store.put destination content
  | none => store

def remove (ref : ObjectRef) : Store where
  objects := Function.update store.objects ref none
  written := Function.update store.written ref false

def removeMany (refs : List ObjectRef) : Store := refs.foldl remove store

variable {store} {before : Store} {ref other : ObjectRef} {content : Bytes}

/-- Nothing is stored under the key but what was there before the call. -/
def Clear (before after : Store) (ref : ObjectRef) : Prop :=
  after.objects ref = none ∨
    (after.written ref = false ∧ after.objects ref = before.objects ref)

/-- The storage is the one before the call but for what the call wrote and removed. -/
def Since (before after : Store) : Prop := ∀ ref,
  if after.written ref then (after.objects ref).isSome = true
  else after.objects ref = none ∨ after.objects ref = before.objects ref

theorem Since.clear_iff (since : Since before store) :
    Clear before store ref ↔ store.written ref = false := by
  have known := since ref
  unfold Clear
  cases wrote : store.written ref with
  | true =>
      rw [wrote, if_pos rfl, Option.isSome_iff_exists] at known
      obtain ⟨content, present⟩ := known
      simp [present]
  | false =>
      rw [wrote, if_neg Bool.false_ne_true] at known
      simpa using known

theorem Since.refl (unwritten : ∀ ref, store.written ref = false) : Since store store := by
  intro ref
  rw [unwritten ref]
  exact .inr rfl

theorem Since.put (since : Since before store) : Since before (store.put ref content) := by
  intro other
  by_cases same : other = ref
  · subst same
    simp [Store.put]
  · simpa [Store.put, same] using since other

/-- The copy finds the bytes that the call has just put. -/
theorem copy_put (source destination : ObjectRef) (content : Bytes) :
    (store.put source content).copy source destination =
      (store.put source content).put destination content := by
  simp [copy, put]

/-- A put removes nothing. -/
theorem isSome_put (present : (store.objects other).isSome = true) :
    ((store.put ref content).objects other).isSome = true := by
  by_cases same : other = ref
  · simp [put, same]
  · simpa [put, same] using present

theorem Since.remove (since : Since before store) : Since before (store.remove ref) := by
  intro other
  by_cases same : other = ref
  · subst same
    simp [Store.remove]
  · simpa [Store.remove, same] using since other

theorem Since.removeMany (since : Since before store) (refs : List ObjectRef) :
    Since before (store.removeMany refs) := by
  induction refs generalizing store with
  | nil => exact since
  | cons ref rest ih => exact ih since.remove

theorem written_removeMany (refs : List ObjectRef) :
    (store.removeMany refs).written ref = true ↔ store.written ref = true ∧ ref ∉ refs := by
  induction refs generalizing store with
  | nil => simp [removeMany]
  | cons first rest ih =>
      rw [removeMany, List.foldl_cons, ← removeMany, ih]
      by_cases same : ref = first
      · simp [remove, same]
      · simp [remove, same]

theorem objects_removeMany (refs : List ObjectRef) (kept : ref ∉ refs) :
    (store.removeMany refs).objects ref = store.objects ref := by
  induction refs generalizing store with
  | nil => rfl
  | cons first rest ih =>
      rw [List.mem_cons, not_or] at kept
      obtain ⟨different, kept⟩ := kept
      rw [removeMany, List.foldl_cons, ← removeMany, ih kept]
      simp [remove, different]

end Store

end PostsMedia
