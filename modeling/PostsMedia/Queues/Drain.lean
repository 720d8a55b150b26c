import PostsMedia.Queues.Backoff

namespace PostsMedia

namespace ProcessingDispatch

/-- What a publication without a failure makes of its row. -/
def settle (checks : Except String MediaJobPayloadV1) (now : Time)
    (dispatch : ProcessingDispatch) : ProcessingDispatch :=
  match checks with
  | .ok _ => dispatch.markPublished now
  | .error message => dispatch.markDead "OUTBOX_MAPPING_INVALID" message

def settled (now : Time) (dispatch : ProcessingDispatch) : ProcessingDispatch :=
  settle dispatch.checked now dispatch

/-- The job that a publication adds. -/
def job (dispatch : ProcessingDispatch) : Option Outbox.Added :=
  dispatch.checked.toOption.map fun payload =>
    ⟨queueNameFor payload.mediaType, dispatch.jobName, dispatch.payload, dispatch.jobId⟩

variable {now leaseSeconds asOf : Nat} {token : LeaseToken} {dispatch : ProcessingDispatch}

@[simp] theorem settled_id : (dispatch.settled now).id = dispatch.id := by
  unfold settled settle
  split <;> rfl

@[simp] theorem isOpen_settled : (dispatch.settled now).isOpen = false := by
  unfold settled settle
  split <;> rfl

@[simp] theorem settled_claimed :
    (dispatch.claimed leaseSeconds token asOf).settled now = dispatch.settled now := by
  have checks : (dispatch.claimed leaseSeconds token asOf).checked = dispatch.checked := rfl
  unfold settled settle
  rw [checks]
  split <;> rfl

@[simp] theorem job_claimed :
    (dispatch.claimed leaseSeconds token asOf).job = dispatch.job := rfl

end ProcessingDispatch

namespace Outbox

/-- The statements of dispatchers that nothing disturbs. -/
def faultless : Event → Bool
  | .tick _ | .begin _ => true
  | .claim _ locked fate => locked.isEmpty && fate = .ok
  | .add _ _ fate _ | .markPublished _ _ _ fate _ | .markDead _ _ fate => fate = .ok
  | _ => false

/-- A guard for the paths of undisturbed dispatchers. -/
def Faultless (_ : State) (event : Event) : Prop := faultless event = true

theorem timely_of_faultless {periods : Periods} {s : State} {event : Event}
    (faultless : Faultless s event) : Timely periods s event := by
  cases event <;> trivial

section Passes

variable {settings : Settings} {s t : State} {token : LeaseToken}

theorem path_of_faultless {event : Event} (undisturbed : faultless event = true)
    (taken : (machine settings).step s event = some t) :
    (machine settings).Path Faultless s t := .single event undisturbed taken

/-- One call of `publish` after its row was claimed. -/
theorem publish_path (settings : Settings) {dispatch : ProcessingDispatch}
    (claimed : t.publications token dispatch.id = .claimed dispatch) :
    ∃ u, (machine settings).Path Faultless t u ∧ u.now = t.now ∧
      u.rows = updateOwned t.rows dispatch.id token
        (ProcessingDispatch.settle dispatch.checked t.now) ∧
      u.queued = t.queued ++ dispatch.job.toList ∧ u.batches = t.batches ∧
      ∀ id, id ≠ dispatch.id → u.publications token id = t.publications token id := by
  cases checks : dispatch.checked with
  | ok payload =>
      have job : dispatch.job = some ⟨queueNameFor payload.mediaType, dispatch.jobName,
          dispatch.payload, dispatch.jobId⟩ := by
        rw [ProcessingDispatch.job, checks]
        rfl
      have first : (machine settings).step t (.add token dispatch.id .ok "") = some
          (State.publishing { t with queued := t.queued ++ dispatch.job.toList } token dispatch.id
            (.added dispatch)) := by
        simp [machine, step, stepAdd, claimed, checks, job]
      have second : (machine settings).step
          (State.publishing { t with queued := t.queued ++ dispatch.job.toList } token dispatch.id
            (.added dispatch)) (.markPublished token dispatch.id t.now .ok "") = some
          ((State.mark (State.publishing { t with queued := t.queued ++ dispatch.job.toList } token
            dispatch.id (.added dispatch)) token dispatch.id
              (ProcessingDispatch.markPublished t.now)).publishing token dispatch.id .ended) := by
        simp [machine, step, stepMarkPublished, State.publishing, Fate.tookEffect]
      have path := (path_of_faultless rfl first).trans (path_of_faultless rfl second)
      refine ⟨_, path, rfl, rfl, rfl, rfl, fun id other => ?_⟩
      simp [State.publishing, State.mark, other]
  | error message =>
      have job : dispatch.job = none := by
        rw [ProcessingDispatch.job, checks]
        rfl
      have first : (machine settings).step t (.add token dispatch.id .ok "") = some
          (t.publishing token dispatch.id (.dying dispatch message)) := by
        simp [machine, step, stepAdd, claimed, checks]
      have second : (machine settings).step
          (t.publishing token dispatch.id (.dying dispatch message))
          (.markDead token dispatch.id .ok) = some
          (((t.publishing token dispatch.id (.dying dispatch message)).mark token dispatch.id
            (ProcessingDispatch.markDead "OUTBOX_MAPPING_INVALID" message)).publishing token
              dispatch.id .ended) := by
        simp [machine, step, stepMarkDead, State.publishing, Fate.tookEffect]
      have path := (path_of_faultless rfl first).trans (path_of_faultless rfl second)
      refine ⟨_, path, rfl, rfl, ?_, rfl, fun id other => ?_⟩
      · rw [job]
        exact (List.append_nil _).symm
      · simp [State.publishing, State.mark, other]

/-- The row of an id in a batch. -/
def among (batch : List ProcessingDispatch) (row : ProcessingDispatch) : Bool :=
  batch.any (·.id = row.id)

def settleAll (batch : List ProcessingDispatch) (now : Time) (row : ProcessingDispatch) :
    ProcessingDispatch :=
  if among batch row then row.settled now else row

/-- A claimed batch whose rows wait for their publications. -/
structure Claimed (t : State) (token : LeaseToken) (batch : List ProcessingDispatch) : Prop where
  distinct : (t.rows.map (·.id)).Nodup
  once : (batch.map (·.id)).Nodup
  stored : ∀ dispatch ∈ batch, dispatch ∈ t.rows
  owned : ∀ dispatch ∈ batch, dispatch.owned dispatch.id token = true
  waiting : ∀ dispatch ∈ batch, t.publications token dispatch.id = .claimed dispatch

theorem among_iff {batch : List ProcessingDispatch} {row : ProcessingDispatch} :
    among batch row = true ↔ ∃ dispatch ∈ batch, dispatch.id = row.id := by
  simp [among]

theorem owned_iff (claimed : Claimed t token batch) {dispatch row : ProcessingDispatch}
    (member : dispatch ∈ batch) (present : row ∈ t.rows) :
    row.owned dispatch.id token = true ↔ row.id = dispatch.id := by
  constructor
  · exact fun owned => (ProcessingDispatch.of_owned owned).1
  · intro same
    rw [eq_of_id claimed.distinct present (claimed.stored dispatch member) same]
    exact claimed.owned dispatch member

@[simp] theorem settleAll_id (batch : List ProcessingDispatch) (now : Time)
    (row : ProcessingDispatch) : (settleAll batch now row).id = row.id := by
  unfold settleAll
  split
  · exact ProcessingDispatch.settled_id
  · rfl

theorem settleAll_settleAll {dispatch : ProcessingDispatch} {rest : List ProcessingDispatch}
    {now : Time} (once : ((dispatch :: rest).map (·.id)).Nodup) (row : ProcessingDispatch) :
    settleAll rest now (settleAll [dispatch] now row) = settleAll (dispatch :: rest) now row := by
  have fresh := (List.nodup_cons.mp once).1
  by_cases same : dispatch.id = row.id
  · have first : settleAll [dispatch] now row = row.settled now := by
      simp [settleAll, among, same]
    have absent : among rest (row.settled now) = false := by
      rw [Bool.eq_false_iff]
      intro member
      obtain ⟨later, present, known⟩ := among_iff.mp member
      rw [ProcessingDispatch.settled_id] at known
      exact fresh (List.mem_map.mpr ⟨later, present, known.trans same.symm⟩)
    rw [first, settleAll, absent]
    simp [settleAll, among, same]
  · simp [settleAll, among, same]

/-- The publication of the first row of a batch settles it and leaves the rest of the batch. -/
theorem Claimed.next {dispatch : ProcessingDispatch} {rest : List ProcessingDispatch} {u : State}
    (claimed : Claimed t token (dispatch :: rest))
    (rows : u.rows = updateOwned t.rows dispatch.id token
      (ProcessingDispatch.settle dispatch.checked t.now))
    (publications : ∀ id, id ≠ dispatch.id →
      u.publications token id = t.publications token id) :
    u.rows = t.rows.map (settleAll [dispatch] t.now) ∧ Claimed u token rest := by
  have once := List.nodup_cons.mp claimed.once
  have others : ∀ later ∈ rest, later.id ≠ dispatch.id := fun later member same =>
    once.1 (List.mem_map.mpr ⟨later, member, same⟩)
  have settles : u.rows = t.rows.map (settleAll [dispatch] t.now) := by
    rw [rows]
    refine List.map_congr_left fun row present => ?_
    have owner := owned_iff claimed List.mem_cons_self present
    by_cases same : row.id = dispatch.id
    · have equal := eq_of_id claimed.distinct present (claimed.stored _ List.mem_cons_self) same
      rw [if_pos (owner.mpr same), equal]
      simp [settleAll, among, ProcessingDispatch.settled]
    · rw [if_neg fun owned => same (owner.mp owned)]
      simp [settleAll, among, Ne.symm same]
  refine ⟨settles, ?_, once.2, fun later member => ?_, fun later member => ?_,
    fun later member => ?_⟩
  · have ids : u.rows.map (·.id) = t.rows.map (·.id) := by
      rw [settles, List.map_map]
      exact List.map_congr_left fun row _ => settleAll_id ..
    rw [ids]
    exact claimed.distinct
  · rw [settles]
    refine List.mem_map.mpr ⟨later, claimed.stored later (List.mem_cons_of_mem _ member), ?_⟩
    simp [settleAll, among, Ne.symm (others later member)]
  · exact claimed.owned later (List.mem_cons_of_mem _ member)
  · rw [publications later.id (others later member)]
    exact claimed.waiting later (List.mem_cons_of_mem _ member)

theorem publishAll_path (settings : Settings) {batch : List ProcessingDispatch}
    (claimed : Claimed t token batch) :
    ∃ u, (machine settings).Path Faultless t u ∧ u.now = t.now ∧
      u.rows = t.rows.map (settleAll batch t.now) ∧
      u.queued = t.queued ++ batch.filterMap (·.job) ∧ u.batches = t.batches := by
  induction batch generalizing t with
  | nil =>
      have none : settleAll [] t.now = id := by
        funext row
        rfl
      exact ⟨t, .refl t, rfl, by rw [none, List.map_id], by simp, rfl⟩
  | cons dispatch rest ih =>
      obtain ⟨u, path, now, rows, queued, batches, publications⟩ :=
        publish_path settings (claimed.waiting dispatch List.mem_cons_self)
      obtain ⟨settles, remains⟩ := claimed.next rows publications
      obtain ⟨v, path', now', rows', queued', batches'⟩ := ih remains
      refine ⟨v, path.trans path', now'.trans now, ?_, ?_, batches'.trans batches⟩
      · rw [rows', settles, List.map_map, now]
        refine List.map_congr_left fun row _ => ?_
        exact settleAll_settleAll claimed.once row
      · rw [queued', queued, List.append_assoc]
        congr 1
        cases job : dispatch.job <;> simp [job]

theorem candidates_once (sound : Sound s) (batchSize : ℕ) (now : Time) :
    ((claimCandidates s.rows [] batchSize now).map (·.id)).Nodup :=
  (((List.take_sublist ..).trans List.filter_sublist).map _).nodup sound.distinct

/-- The state in which a dispatcher waits for the publications of its batch. -/
def claimedState (settings : Settings) (s : State) (token : LeaseToken) : State :=
  let (rows, claimed) := claimBatch s.rows [] settings.batchSize settings.leaseSeconds token s.now
  (State.claiming { s with batches := Function.update s.batches token (.reading s.now) } token
    rows claimed).handing token claimed

theorem claim_path (free : s.batches token = .idle) :
    (machine settings).Path Faultless s (claimedState settings s token) := by
  have begun : (machine settings).step s (.begin token) =
      some { s with batches := Function.update s.batches token (.reading s.now) } := by
    simp [machine, step, free]
  have taken : (machine settings).step
      { s with batches := Function.update s.batches token (.reading s.now) }
      (.claim token [] .ok) = some (claimedState settings s token) := by
    simp [machine, step, stepClaim, claimedState]
  exact (path_of_faultless rfl begun).trans (path_of_faultless rfl taken)

theorem claimed_claimedState (sound : Sound s) (token : LeaseToken) :
    Claimed (claimedState settings s token) token
      ((claimCandidates s.rows [] settings.batchSize s.now).map
        (·.claimed settings.leaseSeconds token s.now)) := by
  have once : (((claimCandidates s.rows [] settings.batchSize s.now).map
      (·.claimed settings.leaseSeconds token s.now)).map (·.id)).Nodup := by
    rw [List.map_map]
    exact candidates_once sound settings.batchSize s.now
  refine ⟨?_, once, ?_, ?_, ?_⟩
  · have ids : (claimedState settings s token).rows.map (·.id) = s.rows.map (·.id) := by
      change (s.rows.map _).map _ = _
      rw [List.map_map]
      refine List.map_congr_left fun row _ => ?_
      simp only [Function.comp_apply]
      split <;> rfl
    rw [ids]
    exact sound.distinct
  · intro dispatch member
    obtain ⟨candidate, chosen, rfl⟩ := List.mem_map.mp member
    refine List.mem_map.mpr ⟨candidate, (mem_claimCandidates chosen).1, if_pos ?_⟩
    exact List.any_eq_true.mpr ⟨candidate, chosen, by simp⟩
  · intro dispatch member
    obtain ⟨candidate, -, rfl⟩ := List.mem_map.mp member
    simp [ProcessingDispatch.owned, ProcessingDispatch.claimed]
  · intro dispatch member
    have found : ((claimCandidates s.rows [] settings.batchSize s.now).map
        (·.claimed settings.leaseSeconds token s.now)).find? (·.id = dispatch.id) =
          some dispatch := by
      cases search : List.find? _ _ with
      | none => simpa using List.find?_eq_none.mp search dispatch member
      | some other =>
          have same : other.id = dispatch.id := by simpa using List.find?_some search
          rw [List.inj_on_of_nodup_map once (List.mem_of_find?_eq_some search) member same]
    simp only [claimedState, claimBatch, State.handing, Function.update_self]
    rw [found]

/-- A claim in between changes no row that is settled afterwards. -/
theorem settleAll_claimed (batch : List ProcessingDispatch) (leaseSeconds : ℕ) (now : Time)
    (row : ProcessingDispatch) :
    settleAll (batch.map (·.claimed leaseSeconds token now)) now
        (if among batch row then row.claimed leaseSeconds token now else row) =
      settleAll batch now row := by
  have same (other : ProcessingDispatch) :
      among (batch.map (·.claimed leaseSeconds token now)) other = among batch other := by
    rw [among, List.any_map]
    rfl
  simp only [settleAll, same]
  by_cases member : among batch row = true
  · have claimed : among batch (row.claimed leaseSeconds token now) = true := member
    rw [if_pos member, if_pos member, if_pos claimed, ProcessingDispatch.settled_claimed]
  · rw [if_neg member, if_neg member]

/-- A pass of an undisturbed dispatcher settles the first claimable rows. -/
theorem pass_path (settings : Settings) (sound : Sound s) (free : s.batches token = .idle) :
    ∃ u, (machine settings).Path Faultless s u ∧ u.now = s.now ∧
      u.rows = s.rows.map
        (settleAll (claimCandidates s.rows [] settings.batchSize s.now) s.now) ∧
      u.queued = s.queued ++
        (claimCandidates s.rows [] settings.batchSize s.now).filterMap (·.job) := by
  obtain ⟨u, path, now, rows, queued, -⟩ :=
    publishAll_path settings (claimed_claimedState sound token)
  refine ⟨u, (claim_path free).trans path, now, ?_, ?_⟩
  · rw [rows]
    change (s.rows.map _).map _ = _
    rw [List.map_map]
    exact List.map_congr_left fun row _ => settleAll_claimed ..
  · rw [queued, List.filterMap_map]
    rfl

/-- All open rows settled, and the other ones as they are. -/
def settleOpen (now : Time) (row : ProcessingDispatch) : ProcessingDispatch :=
  if row.isOpen then row.settled now else row

/-- Every open row is claimable, so a batch takes the first open rows. -/
theorem candidates_of_claimable (claimable : ∀ row ∈ s.rows, row.isOpen = true →
      row.claimable s.now = true) (batchSize : ℕ) :
    claimCandidates s.rows [] batchSize s.now = (s.rows.filter (·.isOpen)).take batchSize := by
  unfold claimCandidates
  congr 1
  refine List.filter_congr fun row member => ?_
  cases isOpen : row.isOpen with
  | true => simp [claimable row member isOpen]
  | false =>
      have closed : row.claimable s.now = false := by
        rw [Bool.eq_false_iff]
        intro matched
        rw [isOpen_of_claimable matched] at isOpen
        cases isOpen
      simp [closed]

section Batches

variable {rows : List ProcessingDispatch} {batchSize : ℕ} {now : Time}

/-- The ids of the first open rows tell them from the later ones. -/
theorem among_take (distinct : (rows.map (·.id)).Nodup) {row : ProcessingDispatch}
    (member : row ∈ rows) : among ((rows.filter (·.isOpen)).take batchSize) row = true ↔
      row ∈ (rows.filter (·.isOpen)).take batchSize := by
  rw [among_iff]
  constructor
  · rintro ⟨dispatch, chosen, same⟩
    have present : dispatch ∈ rows := List.mem_of_mem_filter (List.mem_of_mem_take chosen)
    rwa [← eq_of_id distinct present member same]
  · exact fun chosen => ⟨row, chosen, rfl⟩

theorem settleOpen_settleAll (distinct : (rows.map (·.id)).Nodup) {row : ProcessingDispatch}
    (member : row ∈ rows) :
    settleOpen now (settleAll ((rows.filter (·.isOpen)).take batchSize) now row) =
      settleOpen now row := by
  by_cases chosen : row ∈ (rows.filter (·.isOpen)).take batchSize
  · have isOpen := List.of_mem_filter (List.mem_of_mem_take chosen)
    rw [settleAll, if_pos ((among_take distinct member).mpr chosen)]
    simp [settleOpen, isOpen]
  · rw [settleAll, if_neg fun known => chosen ((among_take distinct member).mp known)]

/-- No row after the batch is in it. -/
theorem not_among_of_drop (distinct : (rows.map (·.id)).Nodup) {row : ProcessingDispatch}
    (later : row ∈ (rows.filter (·.isOpen)).drop batchSize) :
    among ((rows.filter (·.isOpen)).take batchSize) row = false := by
  have member : row ∈ rows := List.mem_of_mem_filter (List.mem_of_mem_drop later)
  have once : (rows.filter (·.isOpen)).Nodup := distinct.of_map.filter _
  rw [← List.take_append_drop batchSize (rows.filter (·.isOpen))] at once
  rw [Bool.eq_false_iff]
  intro known
  exact (List.disjoint_of_nodup_append once) ((among_take distinct member).mp known) later

/-- A pass leaves the open rows after its batch. -/
theorem filter_settleAll (distinct : (rows.map (·.id)).Nodup) :
    (rows.map (settleAll ((rows.filter (·.isOpen)).take batchSize) now)).filter (·.isOpen) =
      (rows.filter (·.isOpen)).drop batchSize := by
  set batch := (rows.filter (·.isOpen)).take batchSize with shape
  have left (row : ProcessingDispatch) :
      (settleAll batch now row).isOpen = (!among batch row && row.isOpen) := by
    unfold settleAll
    cases among batch row <;> simp
  have members : ∀ row ∈ batch, among batch row = true := fun row chosen =>
    among_iff.mpr ⟨row, chosen, rfl⟩
  have rest : (rows.filter (·.isOpen)).filter (fun row => !among batch row) =
      (rows.filter (·.isOpen)).drop batchSize := by
    conv_lhs => rw [← List.take_append_drop batchSize (rows.filter (·.isOpen)), List.filter_append]
    have none : ((rows.filter (·.isOpen)).take batchSize).filter
        (fun row => !among batch row) = [] :=
      List.filter_eq_nil_iff.mpr fun row chosen => by simp [members row chosen]
    have all : ((rows.filter (·.isOpen)).drop batchSize).filter
        (fun row => !among batch row) = (rows.filter (·.isOpen)).drop batchSize :=
      List.filter_eq_self.mpr fun row later => by simp [shape, not_among_of_drop distinct later]
    rw [none, all, List.nil_append]
  calc (rows.map (settleAll batch now)).filter (·.isOpen)
      = (rows.filter fun row => !among batch row && row.isOpen).map (settleAll batch now) := by
        rw [List.filter_map]
        congr 1
        exact List.filter_congr fun row _ => left row
    _ = ((rows.filter (·.isOpen)).drop batchSize).map (settleAll batch now) := by
        rw [← List.filter_filter, rest]
    _ = (rows.filter (·.isOpen)).drop batchSize := by
        rw [List.map_congr_left, List.map_id]
        intro row later
        simp [settleAll, shape, not_among_of_drop distinct later]

end Batches

/-- Infinitely many tokens are unused. -/
def Fresh (s : State) : Prop := ∃ first, ∀ token, first ≤ token → s.batches token = .idle

theorem fresh_update (fresh : Fresh s) (token : LeaseToken) (batch : Batch)
    (batches : t.batches = Function.update s.batches token batch) : Fresh t := by
  obtain ⟨first, idle⟩ := fresh
  refine ⟨max first (token + 1), fun other beyond => ?_⟩
  have distinct : other ≠ token :=
    Nat.ne_of_gt (Nat.le_trans (Nat.le_max_right first (token + 1)) beyond)
  rw [batches, Function.update_of_ne distinct]
  exact idle other (Nat.le_trans (Nat.le_max_left ..) beyond)

theorem fresh_step {event : Event} (taken : step settings s event = some t) (fresh : Fresh s) :
    Fresh t := by
  cases effect_of_step taken with
  | @begin token => exact fresh_update fresh token _ rfl
  | @claim token => exact fresh_update fresh token _ rfl
  | @claimUnseen token => exact fresh_update fresh token _ rfl
  | @refuse token => exact fresh_update fresh token _ rfl
  | crash token => exact fresh_update fresh token _ rfl
  | markPublished | markRetryWait | markDead => split <;> exact fresh
  | tick | insert | reject | add | miss | deletePublished => exact fresh

theorem fresh_of_reachable {guard : State → Event → Prop}
    (reached : (machine settings).Reachable guard s) : Fresh s := by
  refine reached.invariant ?_ fun _ _ _ _ taken fresh => fresh_step taken fresh
  intro start initial
  exact ⟨0, fun token _ => initial.2.1 token⟩

/-- As many passes as the open rows need settle all of them in their order. -/
theorem passes_path (passes : ℕ) (sound : Sound s) (fresh : Fresh s)
    (claimable : ∀ row ∈ s.rows, row.isOpen = true → row.claimable s.now = true)
    (enough : (s.rows.filter (·.isOpen)).length ≤ passes * settings.batchSize) :
    ∃ u, (machine settings).Path Faultless s u ∧ u.now = s.now ∧
      u.rows = s.rows.map (settleOpen s.now) ∧
      u.queued = s.queued ++ (s.rows.filter (·.isOpen)).filterMap (·.job) := by
  induction passes generalizing s with
  | zero =>
      have none : s.rows.filter (·.isOpen) = [] := by
        rw [← List.length_eq_zero_iff]
        omega
      have kept : s.rows.map (settleOpen s.now) = s.rows := by
        rw [List.map_congr_left, List.map_id]
        intro row member
        have closed : row.isOpen = false := by
          simpa using List.filter_eq_nil_iff.mp none row member
        simp [settleOpen, closed]
      exact ⟨s, .refl s, rfl, kept.symm, by simp [none]⟩
  | succ passes ih =>
      obtain ⟨first, idle⟩ := fresh
      obtain ⟨u, path, now, rows, queued⟩ :=
        pass_path settings sound (idle first le_rfl)
      rw [candidates_of_claimable claimable] at rows queued
      have sound' : Sound u :=
        path.invariant (fun _ _ _ _ taken sound => sound_step sound taken) sound
      have fresh' : Fresh u :=
        path.invariant (fun _ _ _ _ taken fresh => fresh_step taken fresh) ⟨first, idle⟩
      have remaining : u.rows.filter (·.isOpen) =
          (s.rows.filter (·.isOpen)).drop settings.batchSize := by
        rw [rows]
        exact filter_settleAll sound.distinct
      have claimable' : ∀ row ∈ u.rows, row.isOpen = true → row.claimable u.now = true := by
        intro row member isOpen
        have later : row ∈ u.rows.filter (·.isOpen) := List.mem_filter.mpr ⟨member, isOpen⟩
        rw [remaining] at later
        rw [now]
        exact claimable row (List.mem_of_mem_filter (List.mem_of_mem_drop later)) isOpen
      have enough' : (u.rows.filter (·.isOpen)).length ≤ passes * settings.batchSize := by
        rw [remaining, List.length_drop]
        rw [Nat.succ_mul] at enough
        omega
      obtain ⟨v, path', now', rows', queued'⟩ := ih sound' fresh' claimable' enough'
      refine ⟨v, path.trans path', now'.trans now, ?_, ?_⟩
      · rw [rows', rows, now, List.map_map]
        exact List.map_congr_left fun row member => settleOpen_settleAll sound.distinct member
      · rw [queued', queued, remaining, List.append_assoc, ← List.filterMap_append,
          List.take_append_drop]

end Passes

section Retention

variable {settings : Settings} {periods : Periods} {s t : State}

/-- No other statement than the cleanup removes or changes a closed row. -/
theorem closed_kept (sound : Sound s) {event : Event} (taken : step settings s event = some t)
    (other : ∀ before, event ≠ .deletePublished before) {row : ProcessingDispatch}
    (member : row ∈ s.rows) (closed : row.isOpen = false) : row ∈ t.rows := by
  have kept {change : ProcessingDispatch → ProcessingDispatch} (same : change row = row) :
      row ∈ s.rows.map change := List.mem_map.mpr ⟨row, member, same⟩
  have marked {token : LeaseToken} {id name : String} {publication : Publication}
      {change : ProcessingDispatch → ProcessingDispatch} (fate : Fate) :
      row ∈ ((if fate.tookEffect then s.mark token id change else s).publishing token name
        publication).rows := by
    split
    · refine kept (if_neg fun owned => ?_)
      rw [ProcessingDispatch.isOpen_of_owned owned] at closed
      cases closed
    · exact member
  have unclaimed (locked : List String) (token : LeaseToken) (asOf : Time) : row ∈
      (claimBatch s.rows locked settings.batchSize settings.leaseSeconds token asOf).1 := by
    refine kept (if_neg fun candidate => ?_)
    rw [isOpen_of_claimable (claimable_of_candidate sound.distinct member candidate)] at closed
    cases closed
  cases effect_of_step taken with
  | deletePublished before => exact absurd rfl (other before)
  | insert => exact s.mem_insert.mpr (.inr member)
  | claim => exact unclaimed _ _ _
  | claimUnseen => exact unclaimed _ _ _
  | markPublished | markRetryWait | markDead => exact marked _
  | tick | begin | refuse | reject | add | miss | crash => exact member

/-- The cleanup removes a row only after its retention. -/
theorem retained_of_step (sound : Sound s) {event : Event} (timely : Timely periods s event)
    (taken : step settings s event = some t) {row : ProcessingDispatch} (member : row ∈ s.rows)
    (closed : row.isOpen = false) : row ∈ t.rows ∨
      ∃ published, row.publishedAt = some published ∧ published + periods.retentionMs < s.now := by
  cases event with
  | deletePublished before =>
      obtain ⟨asOf, past, rfl⟩ := timely
      cases taken
      by_cases old : ∃ published, row.publishedAt = some published ∧
          published < asOf - periods.retentionMs
      · obtain ⟨published, publishedAt, early⟩ := old
        refine .inr ⟨published, publishedAt, Nat.lt_of_lt_of_le ?_ past⟩
        exact Nat.add_lt_of_lt_sub early
      · refine .inl (List.mem_filter.mpr ⟨member, ?_⟩)
        cases publishedAt : row.publishedAt with
        | none => simp
        | some published =>
            have late : ¬ published < asOf - periods.retentionMs :=
              fun early => old ⟨published, publishedAt, early⟩
            simp only [Option.any_some, late, decide_false, Bool.and_false, Bool.not_false]
  | _ => exact .inl (closed_kept sound taken (by intro _ same; cases same) member closed)

end Retention

/-- How soon and how long the outbox does what it does. -/
structure DeliveryLaw (settings : Settings) (periods : Periods) : Prop where
  backoff : 0 < periods.maxRetryDelaySeconds → ∀ number random,
    cappedBase number periods.maxRetryDelaySeconds ≤
        delayMs number periods.maxRetryDelaySeconds random ∧
      delayMs number periods.maxRetryDelaySeconds random ≤
        maxDelayMs periods.maxRetryDelaySeconds
  claimable : ∀ s, (machine settings).Reachable (Timely periods) s → ∀ row ∈ s.rows,
    row.isOpen = true → row.claimable (s.now + window settings periods) = true
  retained : ∀ s event t, (machine settings).Reachable (Timely periods) s →
    Timely periods s event → step settings s event = some t → ∀ row ∈ s.rows,
      row.isOpen = false → row ∈ t.rows ∨
        ∃ published, row.publishedAt = some published ∧ published + periods.retentionMs < s.now
  drained : 0 < settings.batchSize → ∀ s, (machine settings).Reachable (Timely periods) s →
    ∃ t, (machine settings).Path Faultless s t ∧
      t.now = s.now + window settings periods ∧ t.rows = s.rows.map (settleOpen t.now) ∧
      t.queued = s.queued ++ (s.rows.filter (·.isOpen)).filterMap (·.job)

/-- Whatever went wrong before, one undisturbed dispatcher delivers all that is open after one
window, in the order of the table. -/
theorem delivery_law (settings : Settings) (periods : Periods) : DeliveryLaw settings periods where
  backoff positive number random := ⟨cappedBase_le_delayMs positive, delayMs_le ..⟩
  claimable s reached row member isOpen :=
    claimable_of_timed (sound_of_reachable reached) (timed_of_reachable reached) member isOpen
  retained s event t reached timely taken row member closed :=
    retained_of_step (sound_of_reachable reached) timely taken member closed
  drained positive s reached := by
    have waited : (machine settings).Path Faultless s
        { s with now := s.now + window settings periods } :=
      .single (.tick (window settings periods)) rfl rfl
    have reached' := reached.extend (waited.mono fun _ _ => timely_of_faultless)
    obtain ⟨t, path, now, rows, queued⟩ := passes_path (s.rows.filter (·.isOpen)).length
      (sound_of_reachable reached') (fresh_of_reachable reached')
      (fun row member isOpen => claimable_of_timed (sound_of_reachable reached)
        (timed_of_reachable reached) member isOpen)
      (Nat.le_mul_of_pos_right _ positive)
    exact ⟨t, waited.trans path, now, now ▸ rows, queued⟩

/-- Events whose times need no look at the clock. -/
def Immediate (_ : State) : Event → Prop
  | .markRetryWait .. | .deletePublished _ => False
  | _ => True

instance (s : State) (event : Event) : Decidable (Immediate s event) := by
  unfold Immediate
  split <;> infer_instance

theorem timely_of_immediate {periods : Periods} (s : State) (event : Event)
    (immediate : Immediate s event) : Timely periods s event := by
  cases event <;> first | exact trivial | exact immediate.elim

def secondPeriods : Periods := ⟨1, 7⟩

def otherDispatch : ProcessingDispatch :=
  (createWithDispatch { sampleInput with id := "media-1", dispatchId := "dispatch-1" }).2

/-- The queue refuses one of two jobs and takes the other one. -/
def half : State :=
  ((machine sampleSettings).execute Immediate emptyOutbox
    [.insert (createWithDispatch sampleInput).2 0, .insert otherDispatch 1, .begin 0,
      .claim 0 [] .ok, .add 0 "dispatch-0" .refused "down", .add 0 "dispatch-1" .ok ""]).getD
        emptyOutbox

/-- The first row waits for its retry. -/
def waiting : State :=
  ((machine sampleSettings).step half (.markRetryWait 0 "dispatch-0" 1000 .ok)).getD half

/-- The dispatcher dies before it can mark the second row. -/
def disturbed : State := ((machine sampleSettings).step waiting (.crash 0)).getD waiting

/-- A failed publication and a dead dispatcher are made good within the window. -/
theorem delivery_law_disturbed :
    (machine sampleSettings).Reachable (Timely secondPeriods) disturbed ∧
      disturbed.rows.map (·.status) = [.retryWait, .publishing] ∧ disturbed.queued.length = 1 ∧
      ∃ t, (machine sampleSettings).Path Faultless disturbed t ∧ t.now = 30000 ∧
        t.rows.map (·.status) = [.published, .published] ∧ t.queued.length = 3 := by
  have ran : (machine sampleSettings).execute Immediate emptyOutbox
      [.insert (createWithDispatch sampleInput).2 0, .insert otherDispatch 1, .begin 0,
        .claim 0 [] .ok, .add 0 "dispatch-0" .refused "down", .add 0 "dispatch-1" .ok ""] =
      some half := rfl
  have law := delivery_law sampleSettings secondPeriods
  have second : maxDelayMs 1 = 1000 := by
    rw [maxDelayMs]
    exact_mod_cast Doubles.toDouble_natCast (n := 1000) (by norm_num) (by norm_num)
  have drawn : ((1000 : ℕ) : ℚ) = (0 : ℕ) + delayMs 1 1 0 := by
    obtain ⟨least, most⟩ := law.backoff (by decide) 1 0
    simp only [secondPeriods, cappedBase, second] at least most
    rw [le_antisymm most (le_trans (by norm_num) least)]
    norm_num
  have timely : Timely secondPeriods half (.markRetryWait 0 "dispatch-0" 1000 .ok) :=
    ⟨_, _, _, 0, 0, rfl, Nat.le_refl _, drawn⟩
  have path := (((Machine.path_of_execute _ ran).mono timely_of_immediate).snoc
    (.markRetryWait 0 "dispatch-0" 1000 .ok) timely (u := waiting) rfl).snoc
      (.crash 0) (show Timely secondPeriods waiting (.crash 0) from trivial) (u := disturbed) rfl
  have reached : (machine sampleSettings).Reachable (Timely secondPeriods) disturbed :=
    ⟨emptyOutbox, ⟨rfl, fun _ => rfl, fun _ _ => rfl, rfl, rfl, fun _ _ => rfl,
      fun _ _ => rfl⟩, path⟩
  obtain ⟨t, drained, now, rows, queued⟩ := law.drained (by decide) disturbed reached
  have window : window sampleSettings secondPeriods = 30000 := by
    rw [Outbox.window, show secondPeriods.maxRetryDelaySeconds = 1 from rfl, second]
    norm_num [sampleSettings]
  refine ⟨reached, by decide +kernel, by decide +kernel, t, drained, ?_, ?_, ?_⟩
  · rw [now, window]
    rfl
  · rw [rows]
    rfl
  · rw [queued]
    rfl

end Outbox

end PostsMedia
