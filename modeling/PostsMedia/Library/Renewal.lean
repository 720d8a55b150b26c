import Mathlib.Data.List.Basic

namespace Renewal

/-- The limits of a lease that its holder renews by a timer. The holder arms the timer within the
startup, the timer fires late by the patience at most, and a renewal takes the delay at most. -/
structure Limits where
  lease : ℕ
  every : ℕ
  startup : ℕ
  patience : ℕ
  delay : ℕ

/-- How much earlier than the newest renewal the one may be issued that lands last. Renewals
overtake each other only where the timer fires again before a renewal has landed. -/
def Limits.overtaking (limits : Limits) : ℕ :=
  if limits.delay < limits.every then 0 else limits.delay

/-- No term ends before the next one begins. -/
structure Limits.Suffice (limits : Limits) : Prop where
  covered : limits.startup + limits.every + limits.patience + limits.delay + limits.overtaking <
    limits.lease

/-- Whole seconds between the two intervals leave room for less than a second of lateness, also
where the timer runs faster than it was told. -/
theorem suffice_of_seconds {limits : Limits} {everySeconds leaseSeconds : ℕ}
    (positive : 1 ≤ everySeconds) (less : everySeconds < leaseSeconds)
    (every : limits.every = everySeconds * 1000 ∨ limits.every = 1)
    (lease : limits.lease = leaseSeconds * 1000)
    (short : limits.startup + limits.patience + limits.delay < 1000) : limits.Suffice where
  covered := by
    unfold Limits.overtaking
    split <;> omega

/-- What a holder knows of its lease: when it was taken, when the timer fires next, which renewals
are under way, and how long it lasts. -/
structure Holder where
  begun : ℕ
  due : Option ℕ
  pending : List ℕ
  expiry : ℕ

/-- No deadline of the holder is before this time. -/
structure Holder.Prompt (limits : Limits) (holder : Holder) (later : ℕ) : Prop where
  startup : holder.due = none → later ≤ holder.begun + limits.startup
  timer : ∀ due, holder.due = some due → later ≤ due + limits.patience
  renewal : ∀ asOf ∈ holder.pending, later ≤ asOf + limits.delay

/-- The timer has fired in time since the renewal that is the newest of those that have landed. -/
inductive Paced (limits : Limits) (landed : ℕ) : ℕ → List ℕ → Prop
  | landed : Paced limits landed (landed + limits.every) []
  | fired (due asOf : ℕ) (newer : List ℕ) (ripe : due ≤ asOf)
      (inTime : asOf ≤ due + limits.patience) (before : Paced limits landed due newer) :
      Paced limits landed (asOf + limits.every) (asOf :: newer)

/-- The lease is before its timer, or under it. -/
inductive Kept (limits : Limits) (now : ℕ) (holder : Holder) : Prop
  | unarmed (due : holder.due = none) (pending : holder.pending = [])
      (expiry : holder.expiry = holder.begun + limits.lease)
      (early : now ≤ holder.begun + limits.startup)
  | armed (due landed : ℕ) (newer older : List ℕ) (armed : holder.due = some due)
      (pending : holder.pending = newer ++ older) (inTime : now ≤ due + limits.patience)
      (issued : ∀ asOf ∈ holder.pending, now ≤ asOf + limits.delay)
      (past : landed ≤ now) (paced : Paced limits landed due newer)
      (overtaken : ∀ asOf ∈ older, asOf + limits.every ≤ landed)
      (ahead : landed + limits.lease ≤ holder.expiry + limits.startup + limits.overtaking)

section Paced

variable {limits : Limits} {landed due now asOf : ℕ} {newer : List ℕ}

theorem Paced.landed_le (paced : Paced limits landed due newer) :
    landed + limits.every ≤ due := by
  induction paced with
  | landed => exact Nat.le_refl _
  | fired due asOf newer ripe inTime before later => omega

theorem Paced.member_le (paced : Paced limits landed due newer) (member : asOf ∈ newer) :
    asOf + limits.every ≤ due := by
  induction paced with
  | landed => cases member
  | fired due issued newer ripe inTime before later =>
      rcases List.mem_cons.mp member with rfl | earlier
      · exact Nat.le_refl _
      · have bound := later earlier
        omega

/-- One interval and its lateness after the newest landing the next renewal has landed. -/
theorem Paced.live (paced : Paced limits landed due newer)
    (inTime : now ≤ due + limits.patience + limits.delay)
    (issued : ∀ asOf ∈ newer, now ≤ asOf + limits.delay) :
    now ≤ landed + limits.every + limits.patience + limits.delay := by
  induction paced with
  | landed => exact inTime
  | fired due asOf newer ripe late before later =>
      have own := issued asOf List.mem_cons_self
      refine later (by omega) fun earlier member => issued earlier (List.mem_cons_of_mem _ member)

/-- A renewal that lands parts the ones before it from the ones after it. -/
theorem Paced.land {after before : List ℕ}
    (paced : Paced limits landed due (after ++ asOf :: before)) :
    Paced limits asOf due after ∧ ∃ ripe ≤ asOf, Paced limits landed ripe before := by
  generalize whole : after ++ asOf :: before = newer at paced
  induction paced generalizing after with
  | landed => simp at whole
  | fired due issued newer ripe inTime earlier later =>
      cases after with
      | nil =>
          obtain ⟨rfl, rfl⟩ := List.cons.inj whole
          exact ⟨.landed, due, ripe, earlier⟩
      | cons first after =>
          obtain ⟨rfl, rest⟩ := List.cons.inj whole
          obtain ⟨paced, split⟩ := later rest
          exact ⟨.fired due first after ripe inTime paced, split⟩

end Paced

section Rules

variable {limits : Limits} {now later : ℕ} {holder : Holder}

theorem kept_take {begun : ℕ} (early : now ≤ begun + limits.startup) :
    Kept limits now ⟨begun, none, [], begun + limits.lease⟩ := .unarmed rfl rfl rfl early

/-- A kept lease has not ended. -/
theorem Kept.live (kept : Kept limits now holder) (suffice : limits.Suffice) :
    now < holder.expiry := by
  have covered := suffice.covered
  cases kept with
  | unarmed due pending expiry early => omega
  | armed due landed newer older armed pending inTime issued past paced overtaken ahead =>
      have next := paced.live (Nat.le_add_right_of_le inTime) fun asOf member =>
        issued asOf (by rw [pending]; exact List.mem_append_left _ member)
      omega

theorem Kept.wait (kept : Kept limits now holder) (past : now ≤ later)
    (prompt : holder.Prompt limits later) : Kept limits later holder := by
  cases kept with
  | unarmed due pending expiry early => exact .unarmed due pending expiry (prompt.startup due)
  | armed due landed newer older armed pending inTime issued earlier paced overtaken ahead =>
      exact .armed due landed newer older armed pending (prompt.timer due armed) prompt.renewal
        (Nat.le_trans earlier past) paced overtaken ahead

theorem Kept.arm (kept : Kept limits now holder) (unarmed : holder.due = none) :
    Kept limits now { holder with due := some (now + limits.every) } := by
  cases kept with
  | unarmed due pending expiry early =>
      refine .armed (now + limits.every) now [] [] rfl pending (by omega) ?_ (Nat.le_refl _)
        .landed (fun asOf none => by cases none) ?_
      · intro asOf issued
        rw [show holder.pending = [] from pending] at issued
        cases issued
      · show now + limits.lease ≤ holder.expiry + limits.startup + limits.overtaking
        omega
  | armed due landed newer older armed => simp [armed] at unarmed

/-- The timer fires, whatever renewals are still under way. -/
theorem Kept.fire (kept : Kept limits now holder) {due : ℕ} (armed : holder.due = some due)
    (ripe : due ≤ now) :
    Kept limits now
      { holder with due := some (now + limits.every), pending := now :: holder.pending } := by
  cases kept with
  | unarmed unarmed => simp [armed] at unarmed
  | armed due' landed newer older armed' pending inTime issued past paced overtaken ahead =>
      obtain rfl : due' = due := Option.some.inj (armed'.symm.trans armed)
      refine .armed (now + limits.every) landed (now :: newer) older rfl ?_ (by omega) ?_ past
        (.fired due' now newer ripe inTime paced) overtaken ahead
      · rw [pending, List.cons_append]
      · intro asOf member
        rcases List.mem_cons.mp member with rfl | before
        · exact Nat.le_add_right ..
        · exact issued asOf before

/-- A renewal lands, in whatever order. -/
theorem Kept.renew (kept : Kept limits now holder) {asOf : ℕ} (member : asOf ∈ holder.pending)
    (past : asOf ≤ now) :
    Kept limits now
      { holder with pending := holder.pending.erase asOf, expiry := asOf + limits.lease } := by
  cases kept with
  | unarmed due pending => simp [pending] at member
  | armed due landed newer older armed pending inTime issued earlier paced overtaken ahead =>
      have fewer : ∀ other ∈ holder.pending.erase asOf, now ≤ other + limits.delay :=
        fun other left => issued other (List.mem_of_mem_erase left)
      by_cases fresh : asOf ∈ newer
      · obtain ⟨after, before, _, whole, rest⟩ := List.exists_erase_eq fresh
        rw [whole] at paced
        obtain ⟨next, ripe, ready, previous⟩ := paced.land
        refine .armed due asOf after (before ++ older) armed ?_ inTime fewer past next ?_ ?_
        · rw [pending, List.erase_append_left _ fresh, rest, List.append_assoc]
        · intro other left
          have start := previous.landed_le
          rcases List.mem_append.mp left with between | old
          · have bound := previous.member_le between
            omega
          · have bound := overtaken other old
            omega
        · show asOf + limits.lease ≤ asOf + limits.lease + limits.startup + limits.overtaking
          omega
      · have old : asOf ∈ older := by
          rw [pending] at member
          exact (List.mem_append.mp member).resolve_left fresh
        have late := issued asOf member
        have bound := overtaken asOf old
        refine .armed due landed newer (older.erase asOf) armed ?_ inTime fewer earlier paced
          (fun other left => overtaken other (List.mem_of_mem_erase left)) ?_
        · rw [pending, List.erase_append_right _ fresh]
        · -- Only a renewal that takes longer than the interval lands after a newer one.
          have slow : limits.overtaking = limits.delay := if_neg (by omega)
          show landed + limits.lease ≤ asOf + limits.lease + limits.startup + limits.overtaking
          omega

end Rules

end Renewal
