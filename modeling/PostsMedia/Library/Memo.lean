import Mathlib.Data.List.Basic

/-- A promise whose work is not done, one that has settled, and one whose `finally` callback has
also run. -/
inductive Flight (α β : Type)
  | pending (work : α)
  | settled (outcome : β)
  | finished (outcome : β)

/-- A promise is live until its `finally` callback has run. -/
def Flight.live {α β : Type} : Flight α β → Bool
  | .finished _ => false
  | _ => true

/-- The `finally` callback of the promise is due. -/
def Flight.isSettled {α β : Type} : Flight α β → Bool
  | .settled _ => true
  | _ => false

def Flight.outcome {α β : Type} : Flight α β → Option β
  | .pending _ => none
  | .settled outcome => some outcome
  | .finished outcome => some outcome

/-- The number of the promise that is kept, and every promise in the order of its start. -/
structure Memo (α β : Type) where
  current : Option Nat
  flights : List (Flight α β)

namespace Memo

variable {α β : Type}

def empty : Memo α β := ⟨none, []⟩

def live (memo : Memo α β) (id : Nat) : Bool := memo.flights[id]?.any Flight.live

def outcome (memo : Memo α β) (id : Nat) : Option β := memo.flights[id]?.bind Flight.outcome

/-- The promise that a call receives. -/
def target (memo : Memo α β) : Nat := memo.current.getD memo.flights.length

/-- A call receives the current promise and starts a new one only without it. -/
def join (memo : Memo α β) (work : α) : Memo α β :=
  match memo.current with
  | some _ => memo
  | none => ⟨some memo.flights.length, memo.flights ++ [.pending work]⟩

def advance (memo : Memo α β) (id : Nat) (work : α) : Memo α β :=
  { memo with flights := memo.flights.set id (.pending work) }

def settle (memo : Memo α β) (id : Nat) (outcome : β) : Memo α β :=
  { memo with flights := memo.flights.set id (.settled outcome) }

/-- The callback forgets its own promise and no other. -/
def finish (memo : Memo α β) (id : Nat) (outcome : β) : Memo α β where
  current := if memo.current = some id then none else memo.current
  flights := memo.flights.set id (.finished outcome)

/-- Everything that can happen to the promises. A new one starts only where it is admitted. -/
inductive Move (admitted : Prop) : Memo α β → Memo α β → Prop
  | stays (memo : Memo α β) : Move admitted memo memo
  | joined (memo : Memo α β) (work : α) (allowed : admitted) :
      Move admitted memo (memo.join work)
  | advanced (memo : Memo α β) (id : Nat) (before after : α)
      (held : memo.flights[id]? = some (.pending before)) :
      Move admitted memo (memo.advance id after)
  | settled (memo : Memo α β) (id : Nat) (before : α) (outcome : β)
      (held : memo.flights[id]? = some (.pending before)) :
      Move admitted memo (memo.settle id outcome)
  | finished (memo : Memo α β) (id : Nat) (outcome : β)
      (held : memo.flights[id]? = some (.settled outcome)) :
      Move admitted memo (memo.finish id outcome)

/-- The promise that is kept is the live one. -/
def Sound (memo : Memo α β) : Prop := ∀ id, memo.live id = true ↔ memo.current = some id

variable {memo next : Memo α β} {id other : Nat} {result : β} {before after : Flight α β}
  {admitted : Prop}

theorem getElem?_set (held : memo.flights[id]? = some before) :
    (memo.flights.set id after)[other]? =
      if id = other then some after else memo.flights[other]? := by
  have bound : id < memo.flights.length := (List.getElem?_eq_some_iff.mp held).1
  rw [List.getElem?_set]
  by_cases same : id = other
  · subst same
    simp [bound]
  · simp [same]

theorem empty_sound : (empty : Memo α β).Sound := by
  intro id
  simp [empty, live]

theorem join_sound (sound : memo.Sound) (work : α) : (memo.join work).Sound := by
  cases kept : memo.current with
  | some current =>
      rw [join, kept]
      exact sound
  | none =>
      intro id
      have dead := sound id
      rw [kept] at dead
      rw [join, kept]
      unfold live at dead ⊢
      dsimp only
      rcases Nat.lt_trichotomy id memo.flights.length with old | new | beyond
      · rw [List.getElem?_append_left old]
        simp only [dead, Option.some.injEq]
        constructor
        · intro impossible
          cases impossible
        · omega
      · subst new
        simp [Flight.live]
      · rw [List.getElem?_eq_none (by simp; omega)]
        simp only [Option.any_none, Option.some.injEq]
        constructor
        · intro impossible
          cases impossible
        · omega

/-- A promise that stays live is kept. -/
theorem set_sound (sound : memo.Sound) (held : memo.flights[id]? = some before)
    (lived : before.live = true) (lives : after.live = true) :
    Sound { memo with flights := memo.flights.set id after } := by
  intro other
  rw [← sound other]
  unfold live
  dsimp only
  rw [getElem?_set held]
  by_cases same : id = other
  · subst same
    simp [held, lived, lives]
  · simp [same]

theorem finish_sound (sound : memo.Sound) (held : memo.flights[id]? = some (.settled result)) :
    (memo.finish id result).Sound := by
  have kept : memo.current = some id := by
    rw [← sound id]
    simp [live, held, Flight.live]
  intro other
  unfold finish live
  dsimp only
  rw [getElem?_set held, if_pos kept]
  by_cases same : id = other
  · simp [same, Flight.live]
  · have dead := sound other
    rw [kept] at dead
    unfold live at dead
    simp [same, dead]

/-- What admits fewer promises moves as what admits more. -/
theorem Move.mono {wider : Prop} (wide : admitted → wider) (move : Move admitted memo next) :
    Move wider memo next := by
  cases move with
  | stays => exact .stays _
  | joined work allowed => exact .joined _ _ (wide allowed)
  | advanced id before after held => exact .advanced _ _ _ _ held
  | settled id before outcome held => exact .settled _ _ _ _ held
  | finished id outcome held => exact .finished _ _ _ held

theorem Move.sound (move : Move admitted memo next) (sound : memo.Sound) : next.Sound := by
  cases move with
  | stays => exact sound
  | joined work => exact join_sound sound work
  | advanced id before after held => exact set_sound sound held rfl rfl
  | settled id before outcome held => exact set_sound sound held rfl rfl
  | finished id outcome held => exact finish_sound sound held

/-- Two live promises are one. -/
theorem Sound.unique (sound : memo.Sound) (first : memo.live id = true)
    (second : memo.live other = true) : id = other := by
  rw [sound] at first second
  exact Option.some.inj (first.symm.trans second)

/-- Without a new promise the current one stays until it is forgotten. -/
theorem Move.closed (move : Move admitted memo next) (closed : ¬ admitted) :
    next.current = memo.current ∨ next.current = none := by
  cases move with
  | stays => exact Or.inl rfl
  | joined work allowed => exact absurd allowed closed
  | advanced | settled => exact Or.inl rfl
  | finished id outcome held =>
      unfold finish
      dsimp only
      split
      · exact Or.inr rfl
      · exact Or.inl rfl

/-- No promise is lost. -/
theorem Move.length_le (move : Move admitted memo next) :
    memo.flights.length ≤ next.flights.length := by
  cases move with
  | stays => exact Nat.le_refl _
  | joined work =>
      unfold join
      cases memo.current with
      | some current => exact Nat.le_refl _
      | none => simp
  | advanced | settled | finished => simp [advance, settle, finish]

theorem lt_of_live (alive : memo.live id = true) : id < memo.flights.length := by
  unfold live at alive
  by_contra beyond
  rw [List.getElem?_eq_none (Nat.le_of_not_lt beyond)] at alive
  cases alive

theorem finished_of_not_live (dead : memo.live id = false) (bound : id < memo.flights.length) :
    ∃ outcome, memo.flights[id]? = some (.finished outcome) := by
  unfold live at dead
  rw [List.getElem?_eq_getElem bound] at dead ⊢
  cases flight : memo.flights[id] with
  | pending work | settled outcome =>
      rw [flight] at dead
      cases dead
  | finished outcome => exact ⟨outcome, rfl⟩

/-- A promise settles once. -/
theorem Move.keeps (move : Move admitted memo next) (known : memo.outcome id = some result) :
    next.outcome id = some result := by
  cases move with
  | stays => exact known
  | joined work =>
      unfold join
      cases memo.current with
      | some current => exact known
      | none =>
          unfold outcome at known ⊢
          have bound : id < memo.flights.length := by
            by_contra beyond
            rw [List.getElem?_eq_none (Nat.le_of_not_lt beyond)] at known
            cases known
          rw [List.getElem?_append_left bound]
          exact known
  | advanced id' before after held | settled id' before value held =>
      unfold outcome at known ⊢
      simp only [advance, settle]
      rw [getElem?_set held]
      split_ifs with same
      · subst same
        rw [held] at known
        cases known
      · exact known
  | finished id' value held =>
      unfold outcome at known ⊢
      simp only [finish]
      rw [getElem?_set held]
      split_ifs with same
      · subst same
        rw [held] at known
        exact known
      · exact known

/-- The promise that is kept. -/
def kept (memo : Memo α β) : Option (Flight α β) :=
  memo.current.bind fun id => memo.flights[id]?

theorem Sound.current (sound : memo.Sound) (held : memo.flights[id]? = some before)
    (lived : before.live = true) : memo.current = some id := by
  rw [← sound id]
  simp [live, held, lived]

theorem Sound.kept (sound : memo.Sound) (held : memo.flights[id]? = some before)
    (lived : before.live = true) : memo.kept = some before := by
  rw [Memo.kept, sound.current held lived]
  exact held

theorem Sound.kept_of_current (sound : memo.Sound) (current : memo.current = some id) :
    ∃ flight, memo.kept = some flight := by
  have alive := (sound id).mpr current
  rw [Memo.kept, current, Option.bind_some]
  cases flight : memo.flights[id]? with
  | none => simp [live, flight] at alive
  | some kept => exact ⟨kept, rfl⟩

theorem kept_join_none (work : α) (free : memo.current = none) :
    (memo.join work).kept = some (.pending work) := by
  simp [join, Memo.kept, free]

theorem Sound.kept_set (sound : memo.Sound) (held : memo.flights[id]? = some before)
    (lived : before.live = true) :
    Memo.kept { memo with flights := memo.flights.set id after } = some after := by
  rw [Memo.kept, sound.current held lived, Option.bind_some, getElem?_set held, if_pos rfl]

theorem Sound.kept_finish (sound : memo.Sound) (held : memo.flights[id]? = some (.settled result)) :
    (memo.finish id result).kept = none := by
  rw [Memo.kept, finish, if_pos (sound.current held rfl)]
  rfl

end Memo
