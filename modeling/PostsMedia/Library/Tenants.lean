import Mathlib.Logic.Function.Basic
import PostsMedia.Library.Machine

namespace Machine

section Narrow

variable {σ ε : Type*} {m : Machine σ ε} {guard : σ → ε → Prop} {more : σ → Prop} {s t : σ}

/-- The same steps from fewer initial states. -/
def narrow (m : Machine σ ε) (more : σ → Prop) : Machine σ ε where
  initial s := m.initial s ∧ more s
  step := m.step

theorem Path.of_narrow (path : (m.narrow more).Path guard s t) : m.Path guard s t := by
  induction path with
  | refl => exact .refl _
  | snoc event _ admitted taken before => exact .snoc event before admitted taken

theorem Path.narrow (path : m.Path guard s t) : (m.narrow more).Path guard s t := by
  induction path with
  | refl => exact .refl _
  | snoc event _ admitted taken before => exact .snoc event before admitted taken

theorem Reachable.of_narrow (reached : (m.narrow more).Reachable guard s) :
    m.Reachable guard s := by
  obtain ⟨start, initial, path⟩ := reached
  exact ⟨start, initial.1, path.of_narrow⟩

end Narrow

/-- One change of a store. -/
inductive Edit (κ ν : Type*)
  | keep
  | set (place : κ) (value : ν)

namespace Edit

variable {κ ν : Type*} [DecidableEq κ]

def apply (store : κ → ν) : Edit κ ν → κ → ν
  | keep => store
  | set place value => Function.update store place value

/-- The change stays inside a part of the store. -/
def Within (part : κ → Prop) : Edit κ ν → Prop
  | keep => True
  | set place _ => part place

variable {part : κ → Prop} {edit : Edit κ ν} {store other : κ → ν} {place : κ}

theorem Within.apply_outside (within : edit.Within part) (outside : ¬ part place) :
    edit.apply store place = store place := by
  cases edit with
  | keep => rfl
  | set target value =>
      have different : place ≠ target := fun same => outside (same ▸ within)
      exact Function.update_of_ne different value store

theorem apply_congr (same : other place = store place) :
    edit.apply other place = edit.apply store place := by
  cases edit with
  | keep => exact same
  | set target value =>
      by_cases here : place = target
      · subst here
        simp [apply]
      · simp [apply, here, same]

end Edit

/-- A machine whose state has a place for a store that others use too. It means to touch a part of
the store only. -/
structure Tenant (σ ε κ ν : Type*) where
  machine : Machine σ ε
  admits : σ → ε → Prop
  objects : σ → κ → ν
  place : σ → (κ → ν) → σ
  footprint : κ → Prop
  place_objects : ∀ s, place s (objects s) = s
  objects_place : ∀ s store, objects (place s store) = store
  place_place : ∀ s store other, place (place s store) other = place s other

namespace Tenant

variable {κ ν : Type*} [DecidableEq κ]

/-- What the rest of the store holds never matters, and no step changes it. -/
def Local {σ ε : Type*} (tenant : Tenant σ ε κ ν) : Prop :=
  ∀ s store event t, tenant.machine.Reachable tenant.admits s →
    (∀ place, tenant.footprint place → store place = tenant.objects s place) →
    tenant.admits (tenant.place s store) event →
    tenant.machine.step (tenant.place s store) event = some t →
    tenant.admits s event ∧ ∃ (next : σ) (edit : Edit κ ν), edit.Within tenant.footprint ∧
      tenant.machine.step s event = some (tenant.place next (edit.apply (tenant.objects s))) ∧
      t = tenant.place next (edit.apply store)

end Tenant

section Sharing

variable {ι κ ν : Type*} {σ ε : ι → Type*}

/-- One store and all its tenants, who keep the rest of their states to themselves. -/
structure Shared (σ : ι → Type*) (κ ν : Type*) where
  objects : κ → ν
  tenants : ∀ i, σ i

variable (tenant : ∀ i, Tenant (σ i) (ε i) κ ν)

/-- The state that one tenant sees. -/
def Shared.view (s : Shared σ κ ν) (i : ι) : σ i := (tenant i).place (s.tenants i) s.objects

/-- No two tenants mean to touch one place. -/
def Apart : Prop :=
  ∀ i j, i ≠ j → ∀ place, (tenant i).footprint place → ¬ (tenant j).footprint place

/-- The tenant would be where it is without the others. -/
structure Alone (s : Shared σ κ ν) (i : ι) (a : σ i) : Prop where
  reached : (tenant i).machine.Reachable (tenant i).admits a
  seen : (tenant i).place a s.objects = s.view tenant i
  agree : ∀ place, (tenant i).footprint place → s.objects place = (tenant i).objects a place

variable {tenant} {s t : Shared σ κ ν} [DecidableEq κ]

/-- Nobody notices a change outside the own part of the store. -/
theorem Alone.frame {i j : ι} {a : σ i} {edit : Edit κ ν} (apart : Apart tenant)
    (alone : Alone tenant s i a) (other : j ≠ i) (within : edit.Within (tenant j).footprint)
    (objects : t.objects = edit.apply s.objects) (kept : t.tenants i = s.tenants i) :
    Alone tenant t i a where
  reached := alone.reached
  seen := by
    have seen := congrArg (fun u => (tenant i).place u t.objects) alone.seen
    simpa [Shared.view, (tenant i).place_place, kept] using seen
  agree place member := by
    have outside : ¬ (tenant j).footprint place := apart i j other.symm place member
    rw [objects, within.apply_outside outside]
    exact alone.agree place member

variable [DecidableEq ι]

/-- The tenants take their steps in any order. -/
def shared (tenant : ∀ i, Tenant (σ i) (ε i) κ ν) : Machine (Shared σ κ ν) (Σ i, ε i) where
  initial s := ∀ i, (tenant i).machine.initial (s.view tenant i)
  step s event := ((tenant event.1).machine.step (s.view tenant event.1) event.2).map fun t =>
    ⟨(tenant event.1).objects t, Function.update s.tenants event.1 t⟩

/-- Every tenant admits its own steps. -/
def eachAdmits (tenant : ∀ i, Tenant (σ i) (ε i) κ ν) (s : Shared σ κ ν) (event : Σ i, ε i) :
    Prop :=
  (tenant event.1).admits (s.view tenant event.1) event.2

/-- A step of one tenant, as it would be without the others. -/
theorem alone_step (locals : ∀ i, (tenant i).Local) {i : ι} {event : ε i} {a : σ i}
    (alone : Alone tenant s i a) (admitted : eachAdmits tenant s ⟨i, event⟩)
    (taken : (shared tenant).step s ⟨i, event⟩ = some t) :
    ∃ edit : Edit κ ν, edit.Within (tenant i).footprint ∧ t.objects = edit.apply s.objects ∧
      (∀ j, j ≠ i → t.tenants j = s.tenants j) ∧ ∃ b, Alone tenant t i b := by
  obtain ⟨u, stepped, rfl⟩ := Option.map_eq_some_iff.mp taken
  have seen : (tenant i).place a s.objects = s.view tenant i := alone.seen
  obtain ⟨admits, next, edit, within, moved, rfl⟩ := locals i a s.objects event u alone.reached
    alone.agree (seen ▸ admitted) (seen ▸ stepped)
  refine ⟨edit, within, (tenant i).objects_place _ _, fun j other => ?_, _,
    alone.reached.extend (.single event admits moved), ?_, fun place member => ?_⟩
  · exact Function.update_of_ne other _ _
  · simp [Shared.view, (tenant i).objects_place, (tenant i).place_place]
  · simp only [(tenant i).objects_place]
    exact Edit.apply_congr (alone.agree place member)

/-- However the tenants take turns, each of them is where it would be without the others. -/
theorem alone_of_reachable (apart : Apart tenant) (locals : ∀ i, (tenant i).Local)
    (reached : (shared tenant).Reachable (eachAdmits tenant) s) (i : ι) :
    ∃ a, Alone tenant s i a := by
  obtain ⟨start, initial, path⟩ := reached
  induction path generalizing i with
  | refl =>
      refine ⟨start.view tenant i, ⟨_, initial i, .refl _⟩, ?_, fun place _ => ?_⟩
      · simp [Shared.view, (tenant i).place_place]
      · simp [Shared.view, (tenant i).objects_place]
  | snoc event _ admitted taken before =>
      obtain ⟨j, event⟩ := event
      obtain ⟨own, there⟩ := before j
      obtain ⟨edit, within, objects, kept, later⟩ := alone_step locals there admitted taken
      by_cases same : i = j
      · subst same
        exact later
      · obtain ⟨a, alone⟩ := before i
        exact ⟨a, alone.frame apart (Ne.symm same) within objects (kept i same)⟩

/-- No step changes the part of another tenant. -/
theorem untouched_of_reachable (apart : Apart tenant) (locals : ∀ i, (tenant i).Local)
    (reached : (shared tenant).Reachable (eachAdmits tenant) s) {event : Σ i, ε i}
    (admitted : eachAdmits tenant s event) (taken : (shared tenant).step s event = some t) {i : ι}
    (other : i ≠ event.1) {place : κ} (member : (tenant i).footprint place) :
    t.objects place = s.objects place := by
  obtain ⟨own, there⟩ := alone_of_reachable apart locals reached event.1
  obtain ⟨edit, within, objects, -⟩ := alone_step locals there admitted taken
  rw [objects]
  exact within.apply_outside (apart i event.1 other place member)

end Sharing

section Paths

variable {ι κ ν : Type*} {σ ε : ι → Type*} {tenant : ∀ i, Tenant (σ i) (ε i) κ ν}
  {s : Shared σ κ ν} [DecidableEq ι]

/-- What one tenant does, it does beside the others. -/
theorem path_of_tenant {i : ι} {b : σ i}
    (path : (tenant i).machine.Path (tenant i).admits (s.view tenant i) b) :
    ∃ t, (shared tenant).Path (eachAdmits tenant) s t ∧ t.view tenant i = b ∧
      ∀ j, j ≠ i → t.tenants j = s.tenants j := by
  induction path with
  | refl => exact ⟨s, .refl s, rfl, fun _ _ => rfl⟩
  | snoc event _ admitted taken before =>
      obtain ⟨t, path, seen, kept⟩ := before
      subst seen
      refine ⟨_, path.snoc ⟨i, event⟩ admitted (congrArg (Option.map _) taken), ?_,
        fun j other => (Function.update_of_ne other ..).trans (kept j other)⟩
      simp [Shared.view, (tenant i).place_objects]

end Paths

end Machine
