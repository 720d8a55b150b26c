import Mathlib.Data.List.Nodup
import Mathlib.Logic.Function.Basic
import PostsMedia.Domain.Basic
import PostsMedia.Library.Machine
import PostsMedia.Library.Supervision

namespace PostsMedia.Shutdown

open Supervision

variable {ι χ : Type} {β ε ρ : ι → Type}

/-- The one call of `shutdown`. Its snapshot lists the children that were tracked when it began. -/
inductive Call (ι : Type)
  | idle
  | waiting (snapshot : List ι) (began : Time)
  | returned (began ended : Time)

def Call.finished : Call ι → Bool
  | .returned _ _ => true
  | _ => false

/-- All children of a worker and the set of `GracefulShutdownService`. The begin of each child, the
time of its exit and whether it came after the shutdown are recorded for the proofs. -/
structure Fleet (β ε ρ : ι → Type) where
  now : Time
  children : (id : ι) → Option (Child (β id) (ε id) (ρ id))
  begun : ι → Time
  exited : ι → Option Time
  late : ι → Bool
  tracked : List ι
  call : Call ι
  sent : List (ι × Signal × Time)

/-- What happens to a worker and its children, in any order. -/
inductive Event (χ : Type) (ε : ι → Type)
  | tick (duration : Time)
  | spawn (id : ι)
  | exit (id : ι)
  | child (id : ι) (event : Supervision.Event χ (ε id))
  | shutdown
  | resume

namespace Fleet

variable (s : Fleet β ε ρ)

/-- The listeners of `shutdown` heard the exit or the close of a child. -/
def ended (id : ι) : Bool :=
  (s.exited id).isSome || (s.children id).any (·.closed)

/-- The service signals every child it tracks. -/
def signalled (signal : Signal) : List (ι × Signal × Time) :=
  s.sent ++ s.tracked.map fun id => (id, signal, s.now)

/-- The call of `delete` on the set. -/
def untrack [DecidableEq ι] (id : ι) : List ι := s.tracked.filter (· ≠ id)

end Fleet

/-- The grace of `shutdown`. -/
def graceMs : Time := 5000

section Steps

variable [DecidableEq ι] (runs : (id : ι) → Run (β id) χ (ε id) (ρ id)) (s : Fleet β ε ρ)

/-- A run tracks its child as soon as it is spawned. -/
def stepSpawn (id : ι) : Option (Fleet β ε ρ) :=
  match s.children id with
  | some _ => none
  | none =>
      some { s with
        children := Function.update s.children id (some (Child.start (runs id) s.now))
        begun := Function.update s.begun id s.now
        late := Function.update s.late id s.call.finished
        tracked := s.tracked ++ [id] }

/-- The process is gone. Its outputs may still be open. -/
def stepExit (id : ι) : Option (Fleet β ε ρ) :=
  if (s.children id).isSome ∧ s.exited id = none then
    some { s with
      exited := Function.update s.exited id (some s.now)
      tracked := s.untrack id }
  else none

/-- A run that hears the end of its child untracks it. -/
def stepChild (id : ι) (event : Supervision.Event χ (ε id)) : Option (Fleet β ε ρ) :=
  match s.children id with
  | none => none
  | some child =>
      ((runs id).step s.now child event).map fun child =>
        { s with
          children := Function.update s.children id (some child)
          tracked := if child.tracked then s.tracked else s.untrack id }

/-- Without children there is nothing to wait for. -/
def stepShutdown : Option (Fleet β ε ρ) :=
  match s.call with
  | .idle =>
      if s.tracked = [] then some { s with call := .returned s.now s.now }
      else some { s with call := .waiting s.tracked s.now, sent := s.signalled .term }
  | _ => none

/-- The race is over when all children of the snapshot have ended or the grace has passed. -/
def stepResume : Option (Fleet β ε ρ) :=
  match s.call with
  | .waiting snapshot began =>
      if snapshot.all s.ended = true ∨ began + graceMs ≤ s.now then
        some { s with call := .returned began s.now, sent := s.signalled .kill, tracked := [] }
      else none
  | _ => none

def step : Event χ ε → Option (Fleet β ε ρ)
  | .tick duration => some { s with now := s.now + duration }
  | .spawn id => stepSpawn runs s id
  | .exit id => stepExit s id
  | .child id event => stepChild runs s id event
  | .shutdown => stepShutdown s
  | .resume => stepResume s

end Steps

/-- A worker that has spawned nothing. -/
def machine [DecidableEq ι] (runs : (id : ι) → Run (β id) χ (ε id) (ρ id)) :
    Machine (Fleet β ε ρ) (Event χ ε) where
  initial s := (∀ id, s.children id = none) ∧ (∀ id, s.exited id = none) ∧ s.tracked = [] ∧
    s.call = .idle ∧ s.sent = [] ∧ ∀ id, s.late id = false
  step := step runs

variable {runs : (id : ι) → Run (β id) χ (ε id) (ρ id)} {s t : Fleet β ε ρ} {id : ι}

/-- The process of the child is there, and its run has heard of no end. -/
def Fleet.running (s : Fleet β ε ρ) (id : ι) : Prop :=
  s.exited id = none ∧ ∃ child, s.children id = some child ∧ child.tracked = true

/-- What the tracked children and the signals of the service tell about each other. -/
structure Sound (runs : (id : ι) → Run (β id) χ (ε id) (ρ id)) (s : Fleet β ε ρ) : Prop where
  children : ∀ id child, s.children id = some child → Supervision.Sound (runs id) child
  absent : ∀ id, s.children id = none → s.exited id = none ∧ id ∉ s.tracked ∧
    ∀ signal t, (id, signal, t) ∉ s.sent
  distinct : s.tracked.Nodup
  tracked : ∀ id, id ∈ s.tracked ↔ s.running id ∧ ∀ t, (id, .kill, t) ∉ s.sent
  exited : ∀ id e, s.exited id = some e → e ≤ s.now
  idle : s.call = .idle → s.sent = [] ∧ ∀ id, s.late id = false
  waiting : ∀ snapshot began, s.call = .waiting snapshot began → began ≤ s.now ∧
    (∀ id signal t, (id, signal, t) ∈ s.sent ↔ id ∈ snapshot ∧ signal = .term ∧ t = began) ∧
    ∀ id ∈ s.tracked, id ∉ snapshot → began ≤ s.begun id
  returned : ∀ began ended, s.call = .returned began ended → began ≤ ended ∧ ended ≤ s.now ∧
    (∀ id t, (id, .term, t) ∈ s.sent → t = began) ∧
    (∀ id t, (id, .kill, t) ∈ s.sent → t = ended ∧
      ((id, .term, began) ∈ s.sent ∧ began + graceMs ≤ ended ∨ began ≤ s.begun id)) ∧
    ∀ id child, s.children id = some child → s.late id = false →
      child.tracked = false ∨ (∃ e ≤ ended, s.exited id = some e) ∨ (id, .kill, ended) ∈ s.sent

theorem mem_signalled {signal signal' : Signal} {time : Time} :
    (id, signal', time) ∈ s.signalled signal ↔
      (id, signal', time) ∈ s.sent ∨ id ∈ s.tracked ∧ signal' = signal ∧ time = s.now := by
  simp only [Fleet.signalled, List.mem_append, List.mem_map, Prod.mk.injEq]
  constructor
  · rintro (old | ⟨other, member, rfl, rfl, rfl⟩)
    · exact .inl old
    · exact .inr ⟨member, rfl, rfl⟩
  · rintro (old | ⟨member, rfl, rfl⟩)
    · exact .inl old
    · exact .inr ⟨id, member, rfl, rfl, rfl⟩

/-- Some runs heard of an end or some processes are gone, and only these are no longer tracked. -/
structure Shrinks (runs : (id : ι) → Run (β id) χ (ε id) (ρ id)) (s t : Fleet β ε ρ) : Prop where
  now : t.now = s.now
  begun : t.begun = s.begun
  late : t.late = s.late
  call : t.call = s.call
  sent : t.sent = s.sent
  absent : ∀ id, t.children id = none ↔ s.children id = none
  children : ∀ id child, t.children id = some child → Supervision.Sound (runs id) child
  untracked : ∀ id child child', s.children id = some child → t.children id = some child' →
    child.tracked = false → child'.tracked = false
  exited : ∀ id e, s.exited id = some e → t.exited id = some e
  exits : ∀ id e, t.exited id = some e → s.exited id = some e ∨ e = s.now
  missing : ∀ id, s.children id = none → t.exited id = none
  distinct : t.tracked.Nodup
  tracked : ∀ id, id ∈ t.tracked ↔ id ∈ s.tracked ∧ t.running id

theorem Shrinks.sound (shrinks : Shrinks runs s t) (sound : Sound runs s) : Sound runs t where
  children := shrinks.children
  absent id missing := by
    have before := sound.absent id ((shrinks.absent id).mp missing)
    refine ⟨shrinks.missing id ((shrinks.absent id).mp missing), ?_, ?_⟩
    · exact fun member => before.2.1 ((shrinks.tracked id).mp member).1
    · rw [shrinks.sent]
      exact before.2.2
  distinct := shrinks.distinct
  tracked id := by
    rw [shrinks.tracked, sound.tracked, shrinks.sent]
    constructor
    · rintro ⟨⟨_, unkilled⟩, running⟩
      exact ⟨running, unkilled⟩
    · rintro ⟨running, unkilled⟩
      refine ⟨⟨?_, unkilled⟩, running⟩
      obtain ⟨there, child', present', held⟩ := running
      obtain ⟨child, present⟩ : ∃ child, s.children id = some child := by
        rw [← Option.isSome_iff_exists, Option.isSome_iff_ne_none]
        intro missing
        rw [(shrinks.absent id).mpr missing] at present'
        cases present'
      refine ⟨?_, child, present, ?_⟩
      · by_contra gone
        obtain ⟨e, left⟩ := Option.ne_none_iff_exists'.mp gone
        rw [shrinks.exited id e left] at there
        cases there
      · by_contra untracked
        have lost := shrinks.untracked id child child' present present' (by simpa using untracked)
        rw [held] at lost
        cases lost
  exited id e left := by
    rw [shrinks.now]
    rcases shrinks.exits id e left with before | now
    · exact sound.exited id e before
    · exact Nat.le_of_eq now
  idle idle := by
    rw [shrinks.call] at idle
    rw [shrinks.sent, shrinks.late]
    exact sound.idle idle
  waiting snapshot began waiting := by
    rw [shrinks.call] at waiting
    obtain ⟨before, sent, later⟩ := sound.waiting snapshot began waiting
    rw [shrinks.now, shrinks.sent, shrinks.begun]
    exact ⟨before, sent, fun id member => later id ((shrinks.tracked id).mp member).1⟩
  returned began ended returned := by
    rw [shrinks.call] at returned
    obtain ⟨order, past, terms, kills, gone⟩ := sound.returned began ended returned
    rw [shrinks.now, shrinks.sent, shrinks.begun]
    refine ⟨order, past, terms, kills, ?_⟩
    intro id child' present' early
    rw [shrinks.late] at early
    obtain ⟨child, present⟩ : ∃ child, s.children id = some child := by
      rw [← Option.isSome_iff_exists, Option.isSome_iff_ne_none]
      intro missing
      rw [(shrinks.absent id).mpr missing] at present'
      cases present'
    rcases gone id child present early with untracked | ⟨e, inTime, left⟩ | killed
    · exact .inl (shrinks.untracked id child child' present present' untracked)
    · exact .inr (.inl ⟨e, inTime, shrinks.exited id e left⟩)
    · exact .inr (.inr killed)

section Steps

variable [DecidableEq ι]

theorem mem_untrack {other : ι} : other ∈ s.untrack id ↔ other ∈ s.tracked ∧ other ≠ id := by
  simp [Fleet.untrack]

/-- A process that is gone is no longer tracked. -/
theorem shrinks_exit (sound : Sound runs s) (taken : stepExit s id = some t) :
    Shrinks runs s t := by
  unfold stepExit at taken
  split at taken <;> cases taken
  rename_i there
  have kept (other : ι) (different : other ≠ id) :
      Function.update s.exited id (some s.now) other = s.exited other :=
    Function.update_of_ne different _ _
  exact
    { now := rfl
      begun := rfl
      late := rfl
      call := rfl
      sent := rfl
      absent := fun _ => Iff.rfl
      children := sound.children
      untracked := fun other child child' present present' => by
        rw [Option.some.inj (present.symm.trans present')]
        exact fun untracked => untracked
      exited := fun other e left => by
        have different : other ≠ id := by
          rintro rfl
          rw [there.2] at left
          cases left
        exact (kept other different).trans left
      exits := fun other e left => by
        by_cases same : other = id
        · subst same
          simp only [Function.update_self, Option.some.injEq] at left
          exact .inr left.symm
        · exact .inl ((kept other same).symm.trans left)
      missing := fun other missing => by
        have different : other ≠ id := by
          rintro rfl
          simp [missing] at there
        exact (kept other different).trans (sound.absent other missing).1
      distinct := sound.distinct.filter _
      tracked := fun other => by
        rw [mem_untrack]
        constructor
        · rintro ⟨member, different⟩
          obtain ⟨⟨there, rest⟩, _⟩ := (sound.tracked other).mp member
          exact ⟨member, (kept other different).trans there, rest⟩
        · rintro ⟨member, there, _⟩
          refine ⟨member, ?_⟩
          rintro rfl
          simp at there }

/-- A run that hears of an end untracks its child. -/
theorem shrinks_child {event : Supervision.Event χ (ε id)} (sound : Sound runs s)
    (taken : stepChild runs s id event = some t) : Shrinks runs s t := by
  unfold stepChild at taken
  split at taken
  · cases taken
  rename_i child present
  obtain ⟨child', moved, rfl⟩ := Option.map_eq_some_iff.mp taken
  have lost := (tracked_step moved).1
  have kept (other : ι) (different : other ≠ id) :
      Function.update s.children id (some child') other = s.children other :=
    Function.update_of_ne different _ _
  have inside (other : ι) : other ∈ (if child'.tracked then s.tracked else s.untrack id) ↔
      other ∈ s.tracked ∧ (other = id → child'.tracked = true) := by
    by_cases held : child'.tracked = true
    · simp [held]
    · rw [if_neg held, mem_untrack]
      simp [held]
  exact
    { now := rfl
      begun := rfl
      late := rfl
      call := rfl
      sent := rfl
      absent := fun other => by
        by_cases same : other = id
        · subst same
          simp [present]
        · exact Iff.of_eq (congrArg (· = none) (kept other same))
      children := fun other child'' present' => by
        by_cases same : other = id
        · subst same
          simp only [Function.update_self, Option.some.injEq] at present'
          subst present'
          exact (sound.children other child present).step moved
        · exact sound.children other child'' ((kept other same).symm.trans present')
      untracked := fun other first second present' present'' untracked => by
        by_cases same : other = id
        · subst same
          simp only [Function.update_self, Option.some.injEq] at present''
          subst present''
          cases present.symm.trans present'
          by_contra held
          simp [lost (by simpa using held)] at untracked
        · cases present'.symm.trans ((kept other same).symm.trans present'')
          exact untracked
      exited := fun _ _ left => left
      exits := fun _ _ left => .inl left
      missing := fun other missing => (sound.absent other missing).1
      distinct := by
        split
        · exact sound.distinct
        · exact sound.distinct.filter _
      tracked := fun other => by
        rw [inside]
        constructor
        · rintro ⟨member, held⟩
          obtain ⟨⟨there, old, present', held'⟩, _⟩ := (sound.tracked other).mp member
          refine ⟨member, there, ?_⟩
          by_cases same : other = id
          · subst same
            exact ⟨child', by simp, held rfl⟩
          · exact ⟨old, (kept other same).trans present', held'⟩
        · rintro ⟨member, _, held, present', tracked⟩
          refine ⟨member, ?_⟩
          rintro rfl
          simp only [Function.update_self, Option.some.injEq] at present'
          exact present' ▸ tracked }

/-- A new child is tracked. -/
theorem sound_spawn (sound : Sound runs s) (taken : stepSpawn runs s id = some t) :
    Sound runs t := by
  unfold stepSpawn at taken
  split at taken <;> cases taken
  rename_i missing
  obtain ⟨there, untracked, unsent⟩ := sound.absent id missing
  have kept {α : ι → Type} (f : (other : ι) → α other) (value : α id) (other : ι)
      (different : other ≠ id) : Function.update f id value other = f other :=
    Function.update_of_ne different _ _
  have known (other : ι) (signal : Signal) (time : Time)
      (member : (other, signal, time) ∈ s.sent) : other ≠ id := by
    rintro rfl
    exact unsent signal time member
  exact
    { children := fun other child present => by
        by_cases same : other = id
        · subst same
          simp only [Function.update_self, Option.some.injEq] at present
          exact present ▸ sound_start (runs other) s.now
        · exact sound.children other child ((kept s.children _ other same).symm.trans present)
      absent := fun other missing' => by
        have different : other ≠ id := by
          rintro rfl
          simp at missing'
        have before := sound.absent other ((kept s.children _ other different).symm.trans missing')
        exact ⟨before.1, by simp [before.2.1, different], before.2.2⟩
      distinct := by
        rw [List.nodup_append]
        refine ⟨sound.distinct, List.nodup_singleton _, ?_⟩
        rintro other member _ only rfl
        rw [List.mem_singleton.mp only] at member
        exact untracked member
      tracked := fun other => by
        rw [List.mem_append, List.mem_singleton, sound.tracked]
        by_cases same : other = id
        · subst same
          simp only [or_true, true_iff]
          exact ⟨⟨there, _, Function.update_self .., rfl⟩, unsent .kill⟩
        · simp only [same, or_false, Fleet.running, kept s.children _ other same]
      exited := sound.exited
      idle := fun idle => by
        obtain ⟨nothing, early⟩ := sound.idle idle
        refine ⟨nothing, fun other => ?_⟩
        by_cases same : other = id
        · subst same
          simp only [Function.update_self]
          rw [show s.call = .idle from idle]
          rfl
        · exact (kept s.late _ other same).trans (early other)
      waiting := fun snapshot began waiting => by
        obtain ⟨before, sent, later⟩ := sound.waiting snapshot began waiting
        refine ⟨before, sent, fun other member outside => ?_⟩
        by_cases same : other = id
        · subst same
          simpa using before
        · have old : other ∈ s.tracked := by simpa [same] using member
          exact Nat.le_trans (later other old outside)
            (Nat.le_of_eq (kept s.begun _ other same).symm)
      returned := fun began ended returned => by
        obtain ⟨order, past, terms, kills, gone⟩ := sound.returned began ended returned
        refine ⟨order, past, terms, fun other time member => ?_,
          fun other child present early => ?_⟩
        · obtain ⟨moment, reason⟩ := kills other time member
          refine ⟨moment, reason.imp_right fun after => ?_⟩
          exact Nat.le_trans after
            (Nat.le_of_eq (kept s.begun _ other (known other _ _ member)).symm)
        · by_cases same : other = id
          · subst same
            simp only [Function.update_self] at early
            rw [show s.call = .returned began ended from returned] at early
            cases early
          · exact gone other child ((kept s.children _ other same).symm.trans present)
              ((kept s.late _ other same).symm.trans early) }

end Steps

section Calls

theorem sound_tick (sound : Sound runs s) (duration : Time) :
    Sound runs { s with now := s.now + duration } :=
  { sound with
    exited := fun id e left => Nat.le_add_right_of_le (sound.exited id e left)
    waiting := fun snapshot began waiting =>
      ⟨Nat.le_add_right_of_le (sound.waiting snapshot began waiting).1,
        (sound.waiting snapshot began waiting).2⟩
    returned := fun began ended returned => by
      obtain ⟨order, past, rest⟩ := sound.returned began ended returned
      exact ⟨order, Nat.le_add_right_of_le past, rest⟩ }

theorem sound_shutdown (sound : Sound runs s) (taken : stepShutdown s = some t) :
    Sound runs t := by
  unfold stepShutdown at taken
  split at taken
  · rename_i idle
    obtain ⟨nothing, early⟩ := sound.idle idle
    split at taken <;> cases taken
    · rename_i alone
      exact
        { sound with
          idle := fun idle => by cases idle
          waiting := fun _ _ waiting => by cases waiting
          returned := fun began ended returned => by
            cases returned
            refine ⟨le_rfl, le_rfl, ?_, ?_, fun other child present _ => ?_⟩
            · simp [nothing]
            · simp [nothing]
            · by_cases held : child.tracked = true
              · cases left : s.exited other with
                | some e => exact .inr (.inl ⟨e, sound.exited other e left, rfl⟩)
                | none =>
                    have member := (sound.tracked other).mpr
                      ⟨⟨left, child, present, held⟩, by simp [nothing]⟩
                    simp [alone] at member
              · exact .inl (by simpa using held) }
    · exact
        { children := sound.children
          absent := fun other missing => by
            obtain ⟨there, untracked, unsent⟩ := sound.absent other missing
            refine ⟨there, untracked, fun signal time member => ?_⟩
            rcases mem_signalled.mp member with old | ⟨tracked, _⟩
            · exact unsent signal time old
            · exact untracked tracked
          distinct := sound.distinct
          tracked := fun other => by
            rw [sound.tracked]
            have silent (signal : Signal) (time : Time) : (other, signal, time) ∉ s.sent := by
              simp [nothing]
            simp [Fleet.running, mem_signalled, silent]
          exited := sound.exited
          idle := fun idle => by cases idle
          waiting := fun snapshot began waiting => by
            cases waiting
            refine ⟨le_rfl, fun other signal time => ?_, fun other member outside => ?_⟩
            · rw [mem_signalled, nothing]
              simp
            · exact absurd member outside
          returned := fun _ _ returned => by cases returned }
  · cases taken

/-- What is still tracked when the race is over is killed. -/
theorem sound_resume (sound : Sound runs s) (taken : stepResume s = some t) : Sound runs t := by
  unfold stepResume at taken
  split at taken
  · rename_i snapshot began waiting
    split at taken <;> cases taken
    rename_i passed
    obtain ⟨before, sent, later⟩ := sound.waiting snapshot began waiting
    exact
      { children := sound.children
        absent := fun other missing => by
          obtain ⟨there, untracked, unsent⟩ := sound.absent other missing
          refine ⟨there, List.not_mem_nil, fun signal time member => ?_⟩
          rcases mem_signalled.mp member with old | ⟨tracked, _⟩
          · exact unsent signal time old
          · exact untracked tracked
        distinct := List.nodup_nil
        tracked := fun other => by
          simp only [List.not_mem_nil, false_iff]
          rintro ⟨running, unkilled⟩
          have member := (sound.tracked other).mpr
            ⟨running, fun time old => unkilled time (mem_signalled.mpr (.inl old))⟩
          exact unkilled s.now (mem_signalled.mpr (.inr ⟨member, rfl, rfl⟩))
        exited := sound.exited
        idle := fun idle => by cases idle
        waiting := fun _ _ waiting => by cases waiting
        returned := fun began' ended returned => by
          cases returned
          refine ⟨before, le_rfl, fun other time member => ?_, fun other time member => ?_,
            fun other child present _ => ?_⟩
          · rcases mem_signalled.mp member with old | ⟨_, wrong, _⟩
            · exact ((sent other .term time).mp old).2.2
            · cases wrong
          · rcases mem_signalled.mp member with old | ⟨tracked, _, rfl⟩
            · cases ((sent other .kill time).mp old).2.1
            · refine ⟨rfl, ?_⟩
              by_cases inside : other ∈ snapshot
              · left
                refine ⟨mem_signalled.mpr (.inl ((sent other .term began).mpr ⟨inside, rfl, rfl⟩)),
                  ?_⟩
                rcases passed with all | passed
                · have ended := List.all_eq_true.mp all other inside
                  obtain ⟨⟨there, child, present, held⟩, _⟩ := (sound.tracked other).mp tracked
                  have known := (sound.children other child present).tracked
                  rw [held] at known
                  simp [Fleet.ended, there, present] at ended
                  simp [ended] at known
                · exact passed
              · exact .inr (later other tracked inside)
          · by_cases held : child.tracked = true
            · cases left : s.exited other with
              | some e => exact .inr (.inl ⟨e, sound.exited other e left, rfl⟩)
              | none =>
                  have member := (sound.tracked other).mpr ⟨⟨left, child, present, held⟩,
                    fun time old => by cases ((sent other .kill time).mp old).2.1⟩
                  exact .inr (.inr (mem_signalled.mpr (.inr ⟨member, rfl, rfl⟩)))
            · exact .inl (by simpa using held) }
  · cases taken

end Calls

theorem sound_step [DecidableEq ι] {event : Event χ ε} (sound : Sound runs s)
    (taken : step runs s event = some t) : Sound runs t := by
  cases event with
  | tick duration =>
      cases taken
      exact sound_tick sound duration
  | spawn id => exact sound_spawn sound taken
  | exit id => exact (shrinks_exit sound taken).sound sound
  | child id event => exact (shrinks_child sound taken).sound sound
  | shutdown => exact sound_shutdown sound taken
  | resume => exact sound_resume sound taken

theorem sound_of_reachable [DecidableEq ι] {guard : Fleet β ε ρ → Event χ ε → Prop}
    (reached : (machine runs).Reachable guard s) : Sound runs s := by
  apply reached.invariant
  · rintro s ⟨none, there, untracked, idle, unsent, early⟩
    exact
      { children := fun id child present => by cases (none id).symm.trans present
        absent := fun id _ => ⟨there id, by simp [untracked], by simp [unsent]⟩
        distinct := by simp [untracked]
        tracked := fun id => by simp [untracked, Fleet.running, none]
        exited := fun id e left => by cases (there id).symm.trans left
        idle := fun _ => ⟨unsent, early⟩
        waiting := fun _ _ waiting => by cases idle.symm.trans waiting
        returned := fun _ _ returned => by cases idle.symm.trans returned }
  · intro s event t _ taken sound
    exact sound_step sound taken

/-- What holds of the children of every worker. -/
structure Law (m : Machine (Fleet β ε ρ) (Event χ ε)) : Prop where
  tracked : ∀ s, m.Reachable Machine.anything s → ∀ id,
    id ∈ s.tracked ↔ s.running id ∧ ∀ time, (id, .kill, time) ∉ s.sent
  asked : ∀ s t, m.Reachable Machine.anything s → m.step s .shutdown = some t →
    ∀ id, s.running id → (id, .term, s.now) ∈ t.sent
  survivors : ∀ s t, m.Reachable Machine.anything s → m.step s .resume = some t →
    ∀ id, s.running id → (id, .kill, s.now) ∈ t.sent
  patient : ∀ s, m.Reachable Machine.anything s → ∀ id time, (id, .kill, time) ∈ s.sent →
    (∃ asked, (id, .term, asked) ∈ s.sent ∧ asked + graceMs ≤ time) ∨
      ∃ began ended, s.call = .returned began ended ∧ began ≤ s.begun id
  spared : ∀ s event t, m.Reachable Machine.anything s → m.step s event = some t →
    ∀ id signal time, (id, signal, time) ∈ t.sent → (id, signal, time) ∉ s.sent →
      s.running id ∧ time = s.now

/-- Nothing that runs was killed before the service returned. -/
theorem mem_tracked_of_running (sound : Sound runs s) (unfinished : s.call.finished = false)
    (running : s.running id) : id ∈ s.tracked := by
  refine (sound.tracked id).mpr ⟨running, fun time killed => ?_⟩
  cases call : s.call with
  | idle => simp [(sound.idle call).1] at killed
  | waiting snapshot began => cases (((sound.waiting snapshot began call).2.1 _ _ _).mp killed).2.1
  | returned => simp [call, Call.finished] at unfinished

section Law

variable [DecidableEq ι] {event : Event χ ε}

/-- The service signals only what it tracks. -/
theorem sent_of_step (taken : step runs s event = some t) :
    t.sent = s.sent ∨ ∃ signal, t.sent = s.signalled signal := by
  cases event with
  | tick =>
      cases taken
      exact .inl rfl
  | spawn =>
      simp only [step, stepSpawn] at taken
      split at taken <;> cases taken
      exact .inl rfl
  | exit =>
      simp only [step, stepExit] at taken
      split at taken <;> cases taken
      exact .inl rfl
  | child =>
      simp only [step, stepChild] at taken
      split at taken
      · cases taken
      obtain ⟨_, _, rfl⟩ := Option.map_eq_some_iff.mp taken
      exact .inl rfl
  | shutdown =>
      simp only [step, stepShutdown] at taken
      split at taken
      · split at taken <;> cases taken
        · exact .inl rfl
        · exact .inr ⟨.term, rfl⟩
      · cases taken
  | resume =>
      simp only [step, stepResume] at taken
      split at taken
      · split at taken <;> cases taken
        exact .inr ⟨.kill, rfl⟩
      · cases taken

end Law

/-- The service tracks exactly the children that run, asks all of them to end, waits, and kills
exactly those that are left. -/
theorem shutdown_law [DecidableEq ι] (runs : (id : ι) → Run (β id) χ (ε id) (ρ id)) :
    Law (machine runs) where
  tracked s reached := (sound_of_reachable reached).tracked
  asked s t reached taken id running := by
    have sound := sound_of_reachable reached
    simp only [machine, step, stepShutdown] at taken
    split at taken
    · rename_i idle
      have member := mem_tracked_of_running sound (by rw [idle]; rfl) running
      split at taken <;> cases taken
      · rename_i alone
        simp [alone] at member
      · exact mem_signalled.mpr (.inr ⟨member, rfl, rfl⟩)
    · cases taken
  survivors s t reached taken id running := by
    have sound := sound_of_reachable reached
    simp only [machine, step, stepResume] at taken
    split at taken
    · rename_i waiting
      have member := mem_tracked_of_running sound (by rw [waiting]; rfl) running
      split at taken <;> cases taken
      exact mem_signalled.mpr (.inr ⟨member, rfl, rfl⟩)
    · cases taken
  patient s reached id time killed := by
    have sound := sound_of_reachable reached
    cases call : s.call with
    | idle => simp [(sound.idle call).1] at killed
    | waiting snapshot began =>
        cases (((sound.waiting snapshot began call).2.1 _ _ _).mp killed).2.1
    | returned began ended =>
        obtain ⟨_, _, _, kills, _⟩ := sound.returned began ended call
        obtain ⟨rfl, ⟨asked, later⟩ | young⟩ := kills id time killed
        · exact .inl ⟨began, asked, later⟩
        · exact .inr ⟨began, _, rfl, young⟩
  spared s event t reached taken id signal time new old := by
    have sound := sound_of_reachable reached
    rcases sent_of_step taken with same | ⟨sent, more⟩
    · exact absurd (same ▸ new) old
    · rw [more] at new
      rcases mem_signalled.mp new with before | ⟨member, _, now⟩
      · exact absurd before old
      · exact ⟨((sound.tracked id).mp member).1, now⟩

end PostsMedia.Shutdown
