import Mathlib.Data.List.Infix
import Mathlib.Logic.Function.Basic
import PostsMedia.Library.Machine

namespace PostsMedia.Dispatcher

/-- The configuration accepts only a positive concurrency. -/
structure Settings where
  publishConcurrency : Nat
  positive : 0 < publishConcurrency

/-- A call of `publish` by one run. -/
structure Call (Dispatch : Type) where
  run : Nat
  dispatch : Dispatch
  deriving DecidableEq

/-- The program point of `runOnce`. In the loop it waits for the calls of one batch, and the rest
of the dispatches comes after them. -/
inductive Phase (Dispatch : Type)
  | idle
  | claiming
  | publishing (rejected : Bool) (rest : List Dispatch)
  | cleaning

/-- A dispatcher, the calls that have not settled, and for each run what it claimed and what it
passed to `publish`. -/
structure State (Dispatch : Type) where
  running : Bool
  phase : Phase Dispatch
  runs : Nat
  inFlight : List (Call Dispatch)
  claimed : Nat → List Dispatch
  passed : Nat → List Dispatch

/-- The timer, and every promise that `runOnce` waits for. -/
inductive Event (Dispatch : Type)
  | tick
  | claimResolves (dispatches : List Dispatch)
  | claimRejects
  | publishResolves (call : Call Dispatch)
  | publishRejects (call : Call Dispatch)
  | resume
  | cleanupSettles

variable {Dispatch : Type}

/-- The `finally` block. -/
def State.ended (s : State Dispatch) : State Dispatch :=
  { s with running := false, phase := .idle }

/-- The loop from its next batch on. Without dispatches the cleanup is called. -/
def nextBatch (settings : Settings) (s : State Dispatch) (rest : List Dispatch) : State Dispatch :=
  match rest with
  | [] => { s with phase := .cleaning }
  | _ =>
      let batch := rest.take settings.publishConcurrency
      { s with
        phase := .publishing false (rest.drop settings.publishConcurrency)
        inFlight := s.inFlight ++ batch.map (⟨s.runs, ·⟩)
        passed := Function.update s.passed s.runs (s.passed s.runs ++ batch) }

/-- `Promise.all` rejects with the first call of its batch. -/
def noteRejection (s : State Dispatch) (call : Call Dispatch) : Phase Dispatch :=
  match s.phase with
  | .publishing rejected rest => .publishing (rejected || call.run = s.runs) rest
  | phase => phase

variable [DecidableEq Dispatch]

def step (settings : Settings) (s : State Dispatch) : Event Dispatch → Option (State Dispatch)
  | .tick =>
      if s.running then some s
      else some { s with running := true, phase := .claiming, runs := s.runs + 1 }
  | .claimResolves dispatches =>
      match s.phase with
      | .claiming =>
          some (nextBatch settings
            { s with claimed := Function.update s.claimed s.runs dispatches } dispatches)
      | _ => none
  | .claimRejects =>
      match s.phase with
      | .claiming => some s.ended
      | _ => none
  | .publishResolves call =>
      if call ∈ s.inFlight then some { s with inFlight := s.inFlight.erase call } else none
  | .publishRejects call =>
      if call ∈ s.inFlight then
        some { s with inFlight := s.inFlight.erase call, phase := noteRejection s call }
      else none
  | .resume =>
      match s.phase with
      | .publishing rejected rest =>
          if rejected then some s.ended
          else if s.inFlight.any (·.run = s.runs) then none
          else some (nextBatch settings s rest)
      | _ => none
  | .cleanupSettles =>
      match s.phase with
      | .cleaning => some s.ended
      | _ => none

def initial (s : State Dispatch) : Prop :=
  s = ⟨false, .idle, 0, [], fun _ => [], fun _ => []⟩

def machine (settings : Settings) : Machine (State Dispatch) (Event Dispatch) where
  initial := initial
  step := step settings

/-- A run passes each of its dispatches once, in their order, at most so many calls are in flight,
and no call outlives its run. -/
structure Ordered (settings : Settings) (s : State Dispatch) : Prop where
  once : ∀ run, s.passed run <+: s.claimed run
  bounded : s.inFlight.length ≤ settings.publishConcurrency
  settled : s.running = false → s.inFlight = []

/-- A call rejects only when every other call of its batch has settled. -/
def alone (s : State Dispatch) : Event Dispatch → Prop
  | .publishRejects call => s.inFlight = [call]
  | _ => True

instance (s : State Dispatch) (event : Event Dispatch) : Decidable (alone s event) := by
  rcases event with _ | _ | _ | _ | call | _ | _ <;> unfold alone <;> infer_instance

/-- What holds at a program point. -/
def At (s : State Dispatch) : Phase Dispatch → Prop
  | .idle => s.running = false ∧ s.inFlight = []
  | .claiming => s.running = true ∧ s.inFlight = [] ∧ s.passed s.runs = []
  | .publishing rejected rest => s.running = true ∧ (rejected = true → s.inFlight = []) ∧
      s.claimed s.runs = s.passed s.runs ++ rest
  | .cleaning => s.running = true ∧ s.inFlight = []

/-- What holds between the steps of a dispatcher whose calls reject alone. -/
structure Invariant (settings : Settings) (s : State Dispatch) : Prop where
  once : ∀ run, s.passed run <+: s.claimed run
  bounded : s.inFlight.length ≤ settings.publishConcurrency
  current : ∀ call ∈ s.inFlight, call.run = s.runs
  later : ∀ run, s.runs < run → s.passed run = []
  here : At s s.phase

section Steps

variable {settings : Settings} {s t : State Dispatch} {event : Event Dispatch}

omit [DecidableEq Dispatch] in
/-- The next batch starts when the calls of the last one have settled. -/
theorem nextBatch_invariant {rest : List Dispatch} (running : s.running = true)
    (quiet : s.inFlight = []) (once : ∀ run, s.passed run <+: s.claimed run)
    (later : ∀ run, s.runs < run → s.passed run = [])
    (left : s.claimed s.runs = s.passed s.runs ++ rest) :
    Invariant settings (nextBatch settings s rest) := by
  cases rest with
  | nil =>
      constructor
      · exact once
      · simp [nextBatch, quiet]
      · simp [nextBatch, quiet]
      · exact later
      · exact ⟨running, quiet⟩
  | cons first rest =>
      have split := List.take_append_drop settings.publishConcurrency (first :: rest)
      constructor
      · intro run
        by_cases here : run = s.runs
        · subst here
          simp only [nextBatch, Function.update_self, left]
          rw [List.prefix_append_right_inj]
          exact List.take_prefix _ _
        · simp only [nextBatch, Function.update_of_ne here]
          exact once run
      · simp only [nextBatch, quiet, List.nil_append, List.length_map]
        exact List.length_take_le _ _
      · intro call member
        simp only [nextBatch, quiet, List.nil_append, List.mem_map] at member
        obtain ⟨_, _, rfl⟩ := member
        rfl
      · intro run after
        simp only [nextBatch] at after ⊢
        rw [Function.update_of_ne (by omega)]
        exact later run after
      · refine ⟨running, ?_, ?_⟩
        · intro rejected
          cases rejected
        · simp only [nextBatch, Function.update_self]
          rw [left, List.append_assoc, split]

omit [DecidableEq Dispatch] in
/-- A run ends in quiet. -/
theorem ended_invariant (inv : Invariant settings s) (quiet : s.inFlight = []) :
    Invariant settings s.ended where
  once := inv.once
  bounded := inv.bounded
  current := inv.current
  later := inv.later
  here := ⟨rfl, quiet⟩

/-- A settled call leaves the others in flight. -/
theorem settled_invariant {call : Call Dispatch} {phase : Phase Dispatch}
    (inv : Invariant settings s)
    (here : At { s with inFlight := s.inFlight.erase call } phase) :
    Invariant settings { s with inFlight := s.inFlight.erase call, phase } where
  once := inv.once
  bounded := (List.length_erase_le).trans inv.bounded
  current := fun other member => inv.current other (List.mem_of_mem_erase member)
  later := inv.later
  here := by
    cases phase <;> exact here

theorem step_invariant (inv : Invariant settings s) (admitted : alone s event)
    (taken : step settings s event = some t) : Invariant settings t := by
  have here := inv.here
  cases event with
  | tick =>
      rw [step] at taken
      split_ifs at taken with running
      · obtain rfl := Option.some.inj taken
        exact inv
      · obtain rfl := Option.some.inj taken
        have idle : s.inFlight = [] := by
          revert here
          cases s.phase <;> simp [At, running]
        refine ⟨inv.once, inv.bounded, ?_, ?_, rfl, idle, inv.later _ (Nat.lt_succ_self _)⟩
        · simp [idle]
        · intro run after
          exact inv.later run (Nat.lt_of_succ_lt after)
  | claimResolves dispatches =>
      rw [step] at taken
      cases phase : s.phase <;> rw [phase] at taken here <;> cases taken
      obtain ⟨running, quiet, fresh⟩ := here
      apply nextBatch_invariant
      · exact running
      · exact quiet
      · intro run
        by_cases same : run = s.runs
        · subst same
          simp [fresh]
        · simp only [Function.update_of_ne same]
          exact inv.once run
      · exact inv.later
      · simp [fresh]
  | claimRejects =>
      rw [step] at taken
      cases phase : s.phase <;> rw [phase] at taken here <;> cases taken
      exact ended_invariant inv here.2.1
  | publishResolves call =>
      rw [step] at taken
      split_ifs at taken with member
      obtain rfl := Option.some.inj taken
      apply settled_invariant inv
      revert here
      cases s.phase with
      | idle => exact fun here => ⟨here.1, by simp [here.2]⟩
      | claiming => exact fun here => ⟨here.1, by simp [here.2.1], here.2.2⟩
      | publishing rejected rest =>
          exact fun here => ⟨here.1, fun failed => by simp [here.2.1 failed], here.2.2⟩
      | cleaning => exact fun here => ⟨here.1, by simp [here.2]⟩
  | publishRejects call =>
      rw [step] at taken
      split_ifs at taken with member
      obtain rfl := Option.some.inj taken
      have last : s.inFlight.erase call = [] := by
        rw [show s.inFlight = [call] from admitted, List.erase_cons_head]
      apply settled_invariant inv
      unfold noteRejection
      revert here
      cases s.phase with
      | idle => exact fun here => ⟨here.1, last⟩
      | claiming => exact fun here => ⟨here.1, last, here.2.2⟩
      | publishing rejected rest => exact fun here => ⟨here.1, fun _ => last, here.2.2⟩
      | cleaning => exact fun here => ⟨here.1, last⟩
  | resume =>
      rw [step] at taken
      cases phase : s.phase with
      | publishing rejected rest =>
          rw [phase] at taken here
          obtain ⟨running, quiet, left⟩ := here
          dsimp only at taken
          split_ifs at taken with failed busy
          · obtain rfl := Option.some.inj taken
            exact ended_invariant inv (quiet failed)
          · obtain rfl := Option.some.inj taken
            apply nextBatch_invariant running _ inv.once inv.later left
            rw [List.eq_nil_iff_forall_not_mem]
            intro call member
            apply busy
            rw [List.any_eq_true]
            exact ⟨call, member, decide_eq_true (inv.current call member)⟩
      | idle | claiming | cleaning =>
          rw [phase] at taken
          cases taken
  | cleanupSettles =>
      rw [step] at taken
      cases phase : s.phase <;> rw [phase] at taken here <;> cases taken
      exact ended_invariant inv here.2

theorem reachable_invariant (reached : (machine settings).Reachable alone s) :
    Invariant settings s := by
  refine reached.invariant ?_ ?_
  · rintro s rfl
    exact ⟨fun _ => List.prefix_rfl, Nat.zero_le _, by simp, fun _ _ => rfl, rfl, rfl⟩
  · intro s event t admitted taken inv
    exact step_invariant inv admitted taken

/-- The first call that rejects beside another ends the run, and the other outlives it. -/
theorem rejection_outlived (inv : Invariant settings s) {call : Call Dispatch}
    (member : call ∈ s.inFlight) (others : s.inFlight ≠ [call]) :
    ∃ t u, step settings s (.publishRejects call) = some t ∧ step settings t .resume = some u ∧
      ¬ Ordered settings u := by
  have here := inv.here
  have current := inv.current call member
  cases phase : s.phase with
  | publishing rejected rest =>
      have rejects : step settings s (.publishRejects call) = some
          { s with inFlight := s.inFlight.erase call, phase := .publishing true rest } := by
        rw [step, if_pos member, noteRejection, phase]
        simp [current]
      refine ⟨_, _, rejects, rfl, ?_⟩
      rintro ⟨_, _, settled⟩
      have empty : s.inFlight.erase call = [] := settled rfl
      rcases List.erase_eq_nil_iff.mp empty with none | one
      · rw [none] at member
        cases member
      · exact others one
  | idle | cleaning =>
      rw [phase] at here
      rw [here.2] at member
      cases member
  | claiming =>
      rw [phase] at here
      rw [here.2.1] at member
      cases member

/-- As long as every call rejects alone, the runs of a dispatcher are ordered in every state. The
first call that does not ends its run with calls in flight. -/
theorem runs_ordered (settings : Settings)
    (reached : (machine settings).Reachable alone s) :
    Ordered settings s ∧ ∀ call ∈ s.inFlight, s.inFlight ≠ [call] →
      ∃ t u, step settings s (.publishRejects call) = some t ∧
        step settings t .resume = some u ∧ ¬ Ordered settings u := by
  have inv := reachable_invariant reached
  refine ⟨⟨inv.once, inv.bounded, ?_⟩, fun call => rejection_outlived inv⟩
  intro stopped
  have here := inv.here
  revert here
  cases s.phase <;> simp +contextual [At, stopped]

end Steps

def pairSettings : Settings := ⟨2, by decide⟩

/-- A run of two dispatches, of which the first is published. -/
def publishedFirst : List (Event String) :=
  [.tick, .claimResolves ["a", "b"], .publishResolves ⟨1, "a"⟩, .publishRejects ⟨1, "b"⟩]

/-- The first of two dispatches is rejected, and the next tick claims two more. -/
def rejectedFirst : List (Event String) :=
  [.tick, .claimResolves ["a", "b"], .publishRejects ⟨1, "a"⟩, .resume, .tick,
    .claimResolves ["c", "d"]]

/-- A last rejection leaves nothing in flight. -/
theorem publishedFirst_ordered : ∃ s, (s : State String).inFlight = [] ∧
    (machine pairSettings).Reachable alone s ∧ Ordered pairSettings s := by
  obtain ⟨s, reached, quiet⟩ := Machine.reachable_of_observed (machine pairSettings) alone
    State.inFlight [] publishedFirst rfl (by decide +kernel)
  exact ⟨s, quiet, reached, (runs_ordered pairSettings reached).1⟩

/-- Three calls are in flight where two are allowed. -/
theorem rejectedFirst_overlaps : ¬ ∀ (settings : Settings) (s : State String),
    (machine settings).Reachable Machine.anything s → Ordered settings s := by
  intro ordered
  obtain ⟨s, reached, calls⟩ := Machine.reachable_of_observed (machine pairSettings)
    Machine.anything State.inFlight [⟨1, "b"⟩, ⟨2, "c"⟩, ⟨2, "d"⟩] rejectedFirst rfl
    (by decide +kernel)
  have bounded := (ordered pairSettings s reached).bounded
  rw [calls] at bounded
  exact absurd bounded (by decide)

end PostsMedia.Dispatcher
