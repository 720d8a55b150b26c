import Mathlib.Data.Nat.Basic
import PostsMedia.Library.Lease
import PostsMedia.Queues.Soundness

namespace PostsMedia.Outbox

/-- The lease that a row stores. -/
def storedLease (dispatch : ProcessingDispatch) : Option (LeaseToken × Time) :=
  dispatch.leaseToken.bind fun token =>
    dispatch.leaseExpiresAt.map fun expiry => (token, expiry)

/-- The lease of one dispatch. It closes when the dispatch is published or dead. -/
def State.abstractLease (s : State) (id : String) : Lease.State LeaseToken Time where
  now := s.now
  holder := (s.row id).bind storedLease
  terms token := s.terms token id
  released token := s.released token id
  closed := decide (id ∈ s.created) && (s.row id).all fun dispatch => !dispatch.isOpen

section Lease

variable {settings : Settings} {s t : State} {id : String}

theorem row_eq_some (sound : Sound s) {dispatch : ProcessingDispatch} :
    s.row id = some dispatch ↔ dispatch ∈ s.rows ∧ dispatch.id = id := by
  constructor
  · intro found
    have same := List.find?_some found
    exact ⟨List.mem_of_find?_eq_some found, by simpa using same⟩
  · rintro ⟨member, rfl⟩
    cases found : s.row dispatch.id with
    | none =>
        have absent := List.find?_eq_none.mp found dispatch member
        simp at absent
    | some other =>
        have same := List.find?_some found
        have equal := eq_of_id sound.distinct (List.mem_of_find?_eq_some found) member
          (by simpa using same)
        rw [equal]

/-- An update that keeps the ids updates each row. -/
theorem row_map {change : ProcessingDispatch → ProcessingDispatch}
    (ids : ∀ dispatch, (change dispatch).id = dispatch.id) (rows : t.rows = s.rows.map change) :
    t.row id = (s.row id).map change := by
  rw [State.row, rows, List.find?_map]
  congr 1
  congr 1
  funext dispatch
  simp [ids]

/-- An update that changes no row of this id keeps its lease. -/
theorem lease_of_same (now : t.now = s.now) (row : t.row id = s.row id)
    (created : id ∈ t.created ↔ id ∈ s.created)
    (terms : ∀ token, t.terms token id = s.terms token id)
    (released : ∀ token, t.released token id = s.released token id) :
    t.abstractLease id = s.abstractLease id := by
  simp [State.abstractLease, now, row, created, terms, released]

/-- The end of a publication gives the lease of its dispatch back or closes it. -/
theorem lease_of_mark (sound : Sound s) (token : LeaseToken) (dispatchId : String)
    {change : ProcessingDispatch → ProcessingDispatch}
    (ids : ∀ dispatch, (change dispatch).id = dispatch.id)
    (unheld : ∀ dispatch, (change dispatch).leaseToken = none) (closes : Bool)
    (isOpen : ∀ dispatch, (change dispatch).isOpen = !closes) (id : String) :
    Lease.machine.Path Machine.anything (s.abstractLease id)
      ((s.mark token dispatchId change).abstractLease id) := by
  have after : (s.mark token dispatchId change).row id = (s.row id).map fun dispatch =>
      if dispatch.owned dispatchId token then change dispatch else dispatch := by
    apply row_map _ rfl
    intro dispatch
    split
    · exact ids dispatch
    · rfl
  by_cases owned : ∃ dispatch, s.row id = some dispatch ∧ dispatch.owned dispatchId token = true
  · obtain ⟨dispatch, present, owned⟩ := owned
    obtain ⟨member, name⟩ := (row_eq_some sound).mp present
    have any : s.rows.any (·.owned dispatchId token) = true :=
      List.any_eq_true.mpr ⟨dispatch, member, owned⟩
    obtain ⟨sameId, publishing, held⟩ := ProcessingDispatch.of_owned owned
    obtain ⟨expiry, until'⟩ := Option.isSome_iff_exists.mp
      ((sound.healthy dispatch member).expiry.mpr publishing)
    have known := sound.known dispatch member
    rw [present, Option.map_some, if_pos owned] at after
    have released (other : LeaseToken) : (s.mark token dispatchId change).released other id =
        Function.update (fun other => s.released other id) token true other := by
      simp only [State.mark, any, if_true]
      subst name sameId
      by_cases same : other = token
      · subst same
        simp
      · simp [same]
    have state : (s.mark token dispatchId change).abstractLease id =
        { s.abstractLease id with
          holder := none
          closed := closes
          released := Function.update (s.abstractLease id).released token true } := by
      simp only [State.abstractLease, after, Option.bind_some, storedLease, unheld,
        Option.bind_none, Option.all_some, isOpen, Bool.not_not]
      congr 1
      · funext other
        exact released other
      · have created : id ∈ (s.mark token dispatchId change).created := name ▸ known
        simp [created]
    cases closes with
    | true => exact .single (.close token) trivial (by rw [state]; rfl)
    | false =>
        apply Machine.Path.single (.release token) trivial
        have holds : (s.abstractLease id).heldBy token :=
          ⟨expiry, by simp [State.abstractLease, present, storedLease, held, until']⟩
        have opened : (s.abstractLease id).closed = false := by
          simp [State.abstractLease, present, ProcessingDispatch.isOpen, publishing]
        rw [state]
        simp only [Lease.machine, Lease.step, if_pos holds, Option.some.injEq]
        rw [← opened]
  · have kept : (s.mark token dispatchId change).row id = s.row id := by
      rw [after]
      cases present : s.row id with
      | none => rfl
      | some dispatch =>
          have foreign : dispatch.owned dispatchId token ≠ true :=
            fun mine => owned ⟨dispatch, present, mine⟩
          rw [Option.map_some, if_neg foreign]
    have released (other : LeaseToken) :
        (s.mark token dispatchId change).released other id = s.released other id := by
      simp only [State.mark]
      split
      · rename_i any
        obtain ⟨dispatch, member, mine⟩ := List.any_eq_true.mp any
        have named := (ProcessingDispatch.of_owned mine).1
        have different : id ≠ dispatchId := by
          rintro rfl
          exact owned ⟨dispatch, (row_eq_some sound).mpr ⟨member, named⟩, mine⟩
        by_cases same : other = token
        · subst same
          simp [different]
        · simp [same]
      · rfl
    have state := lease_of_same (s := s) (t := s.mark token dispatchId change) rfl kept .rfl
      (fun _ => rfl) released
    rw [state]
    exact .refl _

/-- A row that may be claimed has no running lease. -/
theorem free_of_claimable (sound : Sound s) {dispatch : ProcessingDispatch} {asOf : Time}
    (present : s.row id = some dispatch) (matched : dispatch.claimable asOf = true)
    (past : asOf ≤ s.now) : (s.abstractLease id).free := by
  intro token expiry held
  obtain ⟨member, _⟩ := (row_eq_some sound).mp present
  simp only [State.abstractLease, present, Option.bind_some, storedLease, Option.bind_eq_some_iff,
    Option.map_eq_some_iff, Prod.mk.injEq] at held
  obtain ⟨token', holds, expiry', until', rfl, rfl⟩ := held
  have publishing := (sound.healthy dispatch member).token.mp (by simp [holds])
  simp only [ProcessingDispatch.claimable, publishing, until', Option.any_some,
    decide_eq_true_eq] at matched
  exact Nat.le_trans matched past

/-- A candidate of a fresh call may be granted its lease. -/
theorem grantable_of_candidate (sound : Sound s) {token : LeaseToken} {asOf : Time}
    (past : asOf ≤ s.now) (fresh : ∀ id, s.terms token id = none) {locked : List String}
    {batchSize : Nat} {dispatch : ProcessingDispatch}
    (chosen : (claimCandidates s.rows locked batchSize asOf).find? (·.id = id) = some dispatch) :
    s.row id = some dispatch ∧ dispatch.isOpen = true ∧ (s.abstractLease id).closed = false ∧
      (s.abstractLease id).terms token = none ∧ (s.abstractLease id).free := by
  obtain ⟨member, matched⟩ := mem_claimCandidates (List.mem_of_find?_eq_some chosen)
  have named : dispatch.id = id := by simpa using List.find?_some chosen
  have present : s.row id = some dispatch := (row_eq_some sound).mpr ⟨member, named⟩
  have opened := isOpen_of_claimable matched
  refine ⟨present, opened, ?_, fresh id, free_of_claimable sound present matched past⟩
  simp [State.abstractLease, present, opened]

/-- A claim returns the candidates with its lease. -/
theorem find?_claimBatch (rows : List ProcessingDispatch) (locked : List String)
    (batchSize leaseSeconds : Nat) (token : LeaseToken) (asOf : Time) (id : String) :
    (claimBatch rows locked batchSize leaseSeconds token asOf).2.find? (·.id = id) =
      ((claimCandidates rows locked batchSize asOf).find? (·.id = id)).map
        (·.claimed leaseSeconds token asOf) := by
  simp only [claimBatch, List.find?_map]
  rfl

/-- A claim of a batch grants the lease of each row that it returns. -/
theorem lease_of_claim (sound : Sound s) {token : LeaseToken} {asOf : Time} (past : asOf ≤ s.now)
    (fresh : ∀ id, s.terms token id = none) (locked : List String) (batchSize leaseSeconds : Nat)
    (id : String) :
    let batch := claimBatch s.rows locked batchSize leaseSeconds token asOf
    Lease.machine.Path Machine.anything (s.abstractLease id)
      ((s.claiming token batch.1 batch.2).abstractLease id) := by
  intro batch
  have after : (s.claiming token batch.1 batch.2).row id = (s.row id).map fun dispatch =>
      if (claimCandidates s.rows locked batchSize asOf).any (·.id = dispatch.id) then
        dispatch.claimed leaseSeconds token asOf
      else dispatch := by
    apply row_map _ rfl
    intro dispatch
    split <;> rfl
  have handed := find?_claimBatch s.rows locked batchSize leaseSeconds token asOf id
  have terms (other : LeaseToken) : (s.claiming token batch.1 batch.2).terms other id =
      Function.update (fun other => s.terms other id) token
        ((batch.2.find? (·.id = id)).bind (·.leaseExpiresAt)) other := by
    by_cases same : other = token
    · subst same
      simp [State.claiming]
    · simp [State.claiming, same]
  cases chosen : (claimCandidates s.rows locked batchSize asOf).find? (·.id = id) with
  | none =>
      have kept : (s.claiming token batch.1 batch.2).row id = s.row id := by
        rw [after]
        cases present : s.row id with
        | none => rfl
        | some dispatch =>
            obtain ⟨_, rfl⟩ := (row_eq_some sound).mp present
            rw [Option.map_some, if_neg]
            simpa using List.find?_eq_none.mp chosen
      have state := lease_of_same (s := s) (t := s.claiming token batch.1 batch.2) rfl kept .rfl
        (fun other => ?_) fun _ => rfl
      · rw [state]
        exact .refl _
      · rw [terms, handed, chosen]
        by_cases same : other = token
        · simp [same, fresh id]
        · simp [same]
  | some dispatch =>
      obtain ⟨present, opened, allowed⟩ := grantable_of_candidate sound past fresh chosen
      have any : (claimCandidates s.rows locked batchSize asOf).any (·.id = dispatch.id) = true :=
        List.any_eq_true.mpr ⟨dispatch, List.mem_of_find?_eq_some chosen, by simp⟩
      apply Machine.Path.single (.grant token (asOf + leaseSeconds * 1000)) trivial
      simp only [Lease.machine, Lease.step, if_pos allowed, Option.some.injEq]
      rw [present, Option.map_some, if_pos any] at after
      simp only [State.abstractLease, after, present, Option.bind_some, storedLease,
        ProcessingDispatch.claimed, Option.map_some, Option.all_some]
      congr 1
      · funext other
        rw [terms, handed, chosen]
        rfl
      · have reopened : (dispatch.claimed leaseSeconds token asOf).isOpen = true := rfl
        show (_ && !dispatch.isOpen) = (_ && !(dispatch.claimed leaseSeconds token asOf).isOpen)
        rw [opened, reopened]
        rfl

/-- A new row has no lease. -/
theorem lease_of_insert (sound : Sound s) {dispatch : ProcessingDispatch}
    (new : dispatch.inserted = true) (fresh : dispatch.id ∉ s.created) (position : Nat) :
    (s.insert dispatch position).abstractLease id = s.abstractLease id := by
  have later := sound.insert new fresh position
  have members (row : ProcessingDispatch) :
      row ∈ (s.insert dispatch position).rows ↔ row = dispatch ∨ row ∈ s.rows := s.mem_insert
  by_cases same : id = dispatch.id
  · subst same
    have before : s.row dispatch.id = none := by
      cases present : s.row dispatch.id with
      | none => rfl
      | some row =>
          obtain ⟨member, name⟩ := (row_eq_some sound).mp present
          exact absurd (name ▸ sound.known row member) fresh
    have after : (s.insert dispatch position).row dispatch.id = some dispatch :=
      (row_eq_some later).mpr ⟨(members dispatch).mpr (.inl rfl), rfl⟩
    obtain ⟨status, token, _⟩ := ProcessingDispatch.of_inserted new
    simp only [State.abstractLease, before, after, Option.bind_some, storedLease, token,
      Option.bind_none, Option.all_some, ProcessingDispatch.isOpen, status, fresh]
    simp [State.insert]
  · have kept : (s.insert dispatch position).row id = s.row id := by
      ext row
      rw [row_eq_some later, row_eq_some sound, members]
      constructor
      · rintro ⟨rfl | old, name⟩
        · exact absurd name.symm same
        · exact ⟨old, name⟩
      · rintro ⟨old, name⟩
        exact ⟨.inr old, name⟩
    exact lease_of_same (s := s) (t := s.insert dispatch position) rfl kept
      (by simp [State.insert, same]) (fun _ => rfl) fun _ => rfl

/-- The cleanup deletes only rows whose lease is closed. -/
theorem lease_of_delete (sound : Sound s) (before : Time) :
    State.abstractLease { s with rows := deletePublishedBefore s.rows before } id =
      s.abstractLease id := by
  have later := sound.delete before
  cases after : State.row { s with rows := deletePublishedBefore s.rows before } id with
  | some row =>
      obtain ⟨member, name⟩ := (row_eq_some later).mp after
      have present := (row_eq_some sound).mpr ⟨List.mem_of_mem_filter member, name⟩
      exact lease_of_same (s := s) rfl (after.trans present.symm) .rfl (fun _ => rfl) fun _ => rfl
  | none =>
      cases present : s.row id with
      | none =>
          exact lease_of_same (s := s) rfl (after.trans present.symm) .rfl (fun _ => rfl)
            fun _ => rfl
      | some row =>
          obtain ⟨member, name⟩ := (row_eq_some sound).mp present
          have deleted : row.status = .published := by
            by_contra kept
            have stays : row ∈ deletePublishedBefore s.rows before := by
              simp [deletePublishedBefore, member, kept]
            have found := (row_eq_some later).mpr ⟨stays, name⟩
            rw [after] at found
            cases found
          have unheld : row.leaseToken = none := by
            have token := (sound.healthy row member).token
            simpa [deleted] using token
          simp [State.abstractLease, after, present, storedLease, unheld,
            ProcessingDispatch.isOpen, deleted]

/-- Every statement is a run of the lease of each dispatch. -/
theorem lease_of_step {event : Event} (sound : Sound s) (taken : step settings s event = some t)
    (id : String) :
    Lease.machine.Path Machine.anything (s.abstractLease id) (t.abstractLease id) := by
  have marked {token : LeaseToken} {dispatchId : String} {publication : Publication} (fate : Fate)
      (change : ProcessingDispatch → ProcessingDispatch) (closes : Bool)
      (ids : ∀ dispatch, (change dispatch).id = dispatch.id)
      (unheld : ∀ dispatch, (change dispatch).leaseToken = none)
      (isOpen : ∀ dispatch, (change dispatch).isOpen = !closes) (name : String) :
      Lease.machine.Path Machine.anything (s.abstractLease id)
        (((if fate.tookEffect then s.mark token dispatchId change else s).publishing token name
          publication).abstractLease id) := by
    split
    · exact lease_of_mark sound token dispatchId ids unheld closes isOpen id
    · exact .refl _
  have granted {token : LeaseToken} {asOf : Time} (reading : s.batches token = .reading asOf)
      (locked : List String) : Lease.machine.Path Machine.anything (s.abstractLease id)
        ((s.claiming token (s.batch settings token locked asOf).1
          (s.batch settings token locked asOf).2).abstractLease id) := by
    have call := sound.calls token
    rw [reading] at call
    exact lease_of_claim sound call.1 call.2 locked settings.batchSize settings.leaseSeconds id
  cases effect_of_step taken with
  | tick duration =>
      apply Machine.Path.single (.wait (s.now + duration)) trivial
      have forward : (s.abstractLease id).now ≤ s.now + duration := Nat.le_add_right _ _
      simp only [Lease.machine, Lease.step, if_pos forward]
      rfl
  | insert new fresh =>
      rw [lease_of_insert sound new fresh]
      exact .refl _
  | claim reading => exact granted reading _
  | claimUnseen reading => exact granted reading _
  | markPublished =>
      exact marked _ (ProcessingDispatch.markPublished _) true (fun _ => rfl) (fun _ => rfl)
        (fun _ => rfl) _
  | markRetryWait =>
      exact marked _ (ProcessingDispatch.markRetryWait _ _ _) false (fun _ => rfl) (fun _ => rfl)
        (fun _ => rfl) _
  | markDead =>
      exact marked _ (ProcessingDispatch.markDead _ _) true (fun _ => rfl) (fun _ => rfl)
        (fun _ => rfl) _
  | deletePublished =>
      rw [lease_of_delete sound]
      exact .refl _
  | begin | refuse | reject | add | miss | crash => exact .refl _

/-- The outbox refines the lease of each dispatch. -/
def leaseSimulation (settings : Settings) (id : String) :
    Machine.Simulation (machine settings)
      (Lease.machine : Machine (Lease.State LeaseToken Time) _) Machine.anything where
  related s a := Sound s ∧ a = s.abstractLease id
  start s initial := by
    refine ⟨s.abstractLease id, ?_, sound_initial initial, rfl⟩
    obtain ⟨rows, _, _, _, created, terms, released⟩ := initial
    refine ⟨?_, ?_, fun token => terms token id, fun token => released token id⟩
    · simp [State.abstractLease, State.row, rows]
    · simp [State.abstractLease, created]
  follow := by
    rintro s a event t ⟨sound, rfl⟩ _ taken
    exact ⟨_, lease_of_step sound taken id, sound_step sound taken, rfl⟩

theorem exclusive_of_reachable (reached : (machine settings).Reachable Machine.anything s)
    (id : String) : Lease.Exclusive (s.abstractLease id) := by
  obtain ⟨a, abstract, _, rfl⟩ := (leaseSimulation settings id).reachable reached
  exact Lease.exclusive_of_reachable abstract

/-- Only a claim grants a lease, and the lease machine grants it too. -/
theorem grant_of_step {event : Event} (sound : Sound s) (taken : step settings s event = some t)
    {token : LeaseToken} {expiry : Time} (before : s.terms token id = none)
    (after : t.terms token id = some expiry) :
    ∃ a, Lease.step (s.abstractLease id) (.grant token expiry) = some a := by
  have same (kept : t.terms = s.terms) :
      ∃ a, Lease.step (s.abstractLease id) (.grant token expiry) = some a := by
    rw [kept, before] at after
    cases after
  have granted {other : LeaseToken} {asOf : Time} (reading : s.batches other = .reading asOf)
      (locked : List String) (terms : t.terms = Function.update s.terms other fun id =>
        ((s.batch settings other locked asOf).2.find? (·.id = id)).bind (·.leaseExpiresAt)) :
      ∃ a, Lease.step (s.abstractLease id) (.grant token expiry) = some a := by
    have call := sound.calls other
    rw [reading] at call
    by_cases mine : token = other
    · subst mine
      rw [terms, Function.update_self, Option.bind_eq_some_iff] at after
      obtain ⟨claimed, found, _⟩ := after
      rw [State.batch, find?_claimBatch] at found
      obtain ⟨dispatch, chosen, _⟩ := Option.map_eq_some_iff.mp found
      obtain ⟨_, _, allowed⟩ := grantable_of_candidate sound call.1 call.2 chosen
      exact ⟨_, by rw [Lease.step, if_pos allowed]⟩
    · rw [terms, Function.update_of_ne mine, before] at after
      cases after
  cases effect_of_step taken with
  | claim reading => exact granted reading _ rfl
  | claimUnseen reading => exact granted reading _ rfl
  | markPublished | markRetryWait | markDead =>
      apply same
      split <;> rfl
  | tick | insert | begin | refuse | reject | add | miss | crash | deletePublished =>
      exact same rfl

end Lease

end PostsMedia.Outbox
