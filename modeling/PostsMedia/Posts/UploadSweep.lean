import Mathlib.Logic.Function.Basic
import PostsMedia.Domain.Basic
import PostsMedia.Library.Machine
import PostsMedia.Processing.Workspaces

namespace PostsMedia.UploadSweep

open Paths Posix Workspaces

abbrev FileId := Nat

abbrev RequestId := Nat

abbrev SweepId := Nat

instance : DecidableEq Entry := fun first second =>
  decidable_of_iff (first.name = second.name) (by
    cases first
    cases second
    simp)

/-- The settings of `UploadCleanupService`. -/
structure Settings where
  start : WorkingDirectory
  cwd : WorkingDirectory
  configured : Text
  temporaryMaxAgeMinutes : Nat

namespace Settings

variable (settings : Settings)

/-- `RequestWorkspaceService.rootPath`. -/
def rootPath : Text := resolve settings.start [settings.configured]

def maxAgeMs : Time := settings.temporaryMaxAgeMinutes * 60000

/-- The path of a listed entry. -/
def entryPath (entry : Entry) : Text := join [settings.rootPath, entry.name]

end Settings

structure Directory where
  mtimeMs : Time
  files : List FileId

inductive Node
  | file
  | directory (directory : Directory)

/-- One upload request. Its directory is named by its request id. -/
structure Request where
  entry : Entry
  began : Time
  files : List FileId
  live : Bool

/-- The local variables of `removeStaleWorkspaces`. The listing is recorded for the proofs. -/
structure Sweep where
  readAt : Time
  listed : List Entry
  now : Time
  removed : List Entry

/-- The program point of one sweep. -/
inductive Phase
  | idle
  | reading
  | listed (readAt : Time) (entries : List Entry)
  | checking (sweep : Sweep) (pending : List Entry)
  | removing (sweep : Sweep) (entry : Entry) (pending : List Entry)
  | returned (sweep : Sweep)
  | refused (path : Text)
  | threw

/-- The root of the uploads with all requests and sweeps. The names that were ever in use are
recorded for the proofs. -/
structure State where
  now : Time
  rootExists : Bool
  entries : Entry → Option Node
  requests : RequestId → Option Request
  sweeps : SweepId → Phase
  used : List Entry

/-- What the requests, the timer and the file system do, in any order. -/
inductive Event
  | tick (duration : Time)
  | begin (q : RequestId) (randomUUID : Uuid) (incoming : Option Text)
  | mkdir (q : RequestId)
  | create (q : RequestId) (file : FileId)
  | finish (q : RequestId)
  | sweep (w : SweepId)
  | readdir (w : SweepId) (entries : Option (List Entry))
  | clock (w : SweepId)
  | stat (w : SweepId) (found : Bool)
  | unlink (w : SweepId) (file : FileId)
  | rmdir (w : SweepId)
  | fail (w : SweepId)

/-- The directory of a request. -/
def requestEntry (randomUUID : Uuid) (incoming : Option Text) : Entry :=
  ⟨use randomUUID incoming, use_name randomUUID incoming⟩

namespace State

variable (s : State)

def put (entry : Entry) (node : Option Node) : State :=
  { s with entries := Function.update s.entries entry node }

def request (q : RequestId) (request : Request) : State :=
  { s with requests := Function.update s.requests q (some request) }

def goto (w : SweepId) (phase : Phase) : State :=
  { s with sweeps := Function.update s.sweeps w phase }

end State

/-- The loop goes on with the next entry. -/
def nextEntry (sweep : Sweep) : List Entry → Phase
  | [] => .returned sweep
  | pending => .checking sweep pending

section Steps

variable (settings : Settings) (s : State)

def stepBegin (q : RequestId) (entry : Entry) : Option State :=
  match s.requests q with
  | some _ => none
  | none => some { s.request q ⟨entry, s.now, [], true⟩ with used := entry :: s.used }

/-- The destination of the disk storage. -/
def stepMkdir (q : RequestId) : Option State :=
  match s.requests q with
  | some request =>
      if request.live then
        match s.entries request.entry with
        | none =>
            some { s.put request.entry (some (.directory ⟨s.now, []⟩)) with rootExists := true }
        | some (.directory _) => some s
        | some .file => some (s.request q { request with live := false })
      else none
  | none => none

/-- A new file of the disk storage. Without its directory the request fails. -/
def stepCreate (q : RequestId) (file : FileId) : Option State :=
  match s.requests q with
  | some request =>
      if request.live then
        match s.entries request.entry with
        | some (.directory directory) =>
            some ((s.put request.entry
              (some (.directory ⟨s.now, directory.files ++ [file]⟩))).request q
                { request with files := request.files ++ [file] })
        | _ => some (s.request q { request with live := false })
      else none
  | none => none

def stepFinish (q : RequestId) : Option State :=
  match s.requests q with
  | some request => some (s.request q { request with live := false })
  | none => none

def stepSweep (w : SweepId) : Option State :=
  match s.sweeps w with
  | .idle => some (s.goto w .reading)
  | _ => none

/-- Without a root there is nothing to remove. Any other failure of `readdir` is thrown. -/
def stepReaddir (w : SweepId) (entries : Option (List Entry)) : Option State :=
  match s.sweeps w with
  | .reading =>
      some (s.goto w (match s.rootExists, entries with
        | false, _ => .returned ⟨s.now, [], s.now, []⟩
        | true, some entries => .listed s.now entries
        | true, none => .threw))
  | _ => none

/-- The loop starts with one reading of the clock. -/
def stepClock (w : SweepId) : Option State :=
  match s.sweeps w with
  | .listed readAt entries => some (s.goto w (nextEntry ⟨readAt, entries, s.now, []⟩ entries))
  | _ => none

/-- Only a directory that is too old goes to `removeWorkspace`. A failed `stat` skips its entry. -/
def stepStat (w : SweepId) (found : Bool) : Option State :=
  match s.sweeps w with
  | .checking sweep (entry :: pending) =>
      some (s.goto w (match found, s.entries entry with
        | true, some (.directory directory) =>
            if directory.mtimeMs + settings.maxAgeMs < sweep.now then
              if isWithinRoot settings.cwd settings.rootPath (settings.entryPath entry) then
                .removing sweep entry pending
              else .refused (settings.entryPath entry)
            else nextEntry sweep pending
        | _, _ => nextEntry sweep pending))
  | _ => none

/-- `rm` removes the files of a directory one by one. -/
def stepUnlink (w : SweepId) (file : FileId) : Option State :=
  match s.sweeps w with
  | .removing _ entry _ =>
      match s.entries entry with
      | some (.directory directory) =>
          if file ∈ directory.files then
            some (s.put entry (some (.directory ⟨s.now, directory.files.filter (· ≠ file)⟩)))
          else none
      | _ => none
  | _ => none

/-- `rm` removes an empty directory, and a missing one is as good. -/
def stepRmdir (w : SweepId) : Option State :=
  match s.sweeps w with
  | .removing sweep entry pending =>
      let next := nextEntry { sweep with removed := sweep.removed ++ [entry] } pending
      match s.entries entry with
      | some (.directory directory) =>
          if directory.files = [] then some ((s.put entry none).goto w next) else none
      | _ => some ((s.put entry none).goto w next)
  | _ => none

def stepFail (w : SweepId) : Option State :=
  match s.sweeps w with
  | .removing _ _ _ => some (s.goto w .threw)
  | _ => none

def step : Event → Option State
  | .tick duration => some { s with now := s.now + duration }
  | .begin q randomUUID incoming => stepBegin s q (requestEntry randomUUID incoming)
  | .mkdir q => stepMkdir s q
  | .create q file => stepCreate s q file
  | .finish q => stepFinish s q
  | .sweep w => stepSweep s w
  | .readdir w entries => stepReaddir s w entries
  | .clock w => stepClock s w
  | .stat w found => stepStat settings s w found
  | .unlink w file => stepUnlink s w file
  | .rmdir w => stepRmdir s w
  | .fail w => stepFail s w

end Steps

/-- Whatever earlier processes have left in the root. -/
def machine (settings : Settings) : Machine State Event where
  initial s := (∀ q, s.requests q = none) ∧ (∀ w, s.sweeps w = .idle) ∧
    ∀ entry, s.entries entry ≠ none → entry ∈ s.used ∧ s.rootExists = true
  step := step settings

/-- What `readdir` answers is what the root holds. -/
def Listing (s : State) : Event → Prop
  | .readdir _ (some entries) => ∀ entry, entry ∈ entries ↔ s.entries entry ≠ none
  | _ => True

/-- This request begins under an id that was never used, and it ends within the greatest age of a
workspace. -/
def Orderly (settings : Settings) (q : RequestId) (s : State) (event : Event) : Prop :=
  Listing s event ∧
    match event with
    | .tick duration => ∀ request, s.requests q = some request → request.live = true →
        s.now + duration ≤ request.began + settings.maxAgeMs
    | .begin p randomUUID incoming => p = q → requestEntry randomUUID incoming ∉ s.used
    | _ => True

/-- No `stat` fails. -/
def Complete (s : State) (event : Event) : Prop :=
  Listing s event ∧
    match event with
    | .stat _ found => found = true
    | _ => True

/-- What a sweep does to a directory that is too old. -/
def Event.removes : Event → Bool
  | .unlink _ _ | .rmdir _ => true
  | _ => false

/-- The entries that a sweep still names. -/
def Phase.names : Phase → List Entry
  | .listed _ entries => entries
  | .checking _ pending => pending
  | .removing _ entry pending => entry :: pending
  | _ => []

/-- The entry that a sweep is about to remove. -/
def Phase.target : Phase → Option Entry
  | .removing _ entry _ => some entry
  | _ => none

/-- What a sweep that has returned has removed. -/
def Phase.removed : Phase → Option (List Entry)
  | .returned sweep => some sweep.removed
  | _ => none

/-- What a sweep has read from the clock. -/
def Phase.clock : Phase → Option Time
  | .checking sweep _ | .removing sweep _ _ => some sweep.now
  | _ => none

/-- What is asked of one request while it is live. -/
structure Safe (settings : Settings) (s : State) (request : Request) : Prop where
  prompt : s.now ≤ request.began + settings.maxAgeMs
  young : ∀ directory, s.entries request.entry = some (.directory directory) →
    request.began ≤ directory.mtimeMs
  spared : ∀ w, (s.sweeps w).target ≠ some request.entry
  kept : ∀ file ∈ request.files, ∃ directory,
    s.entries request.entry = some (.directory directory) ∧ file ∈ directory.files

/-- No sweep comes near the directory of this request while it is live. -/
structure Sound (settings : Settings) (q : RequestId) (s : State) : Prop where
  used : ∀ entry, s.entries entry ≠ none → entry ∈ s.used
  named : ∀ w, ∀ entry ∈ (s.sweeps w).names, entry ∈ s.used
  clocks : ∀ w now, (s.sweeps w).clock = some now → now ≤ s.now
  requests : ∀ p request, s.requests p = some request →
    request.entry ∈ s.used ∧ request.began ≤ s.now
  guarded : ∀ request, s.requests q = some request → request.live = true →
    Safe settings s request

section Updates

variable {settings : Settings} {s t : State} {w : SweepId} {p q : RequestId}

theorem Sound.goto (sound : Sound settings q s) (phase : Phase)
    (named : ∀ entry ∈ phase.names, entry ∈ s.used)
    (clock : ∀ now, phase.clock = some now → now ≤ s.now)
    (spared : ∀ entry, phase.target = some entry → ∀ request, s.requests q = some request →
      request.live = true → request.entry ≠ entry) :
    Sound settings q (s.goto w phase) :=
  { sound with
    named := fun other => by
      by_cases same : other = w
      · subst same
        simpa [State.goto] using named
      · simpa [State.goto, same] using sound.named other
    clocks := fun other => by
      by_cases same : other = w
      · subst same
        simpa [State.goto] using clock
      · simpa [State.goto, same] using sound.clocks other
    guarded := fun request found live =>
      { sound.guarded request found live with
        spared := fun other => by
          by_cases same : other = w
          · subst same
            simp only [State.goto, Function.update_self]
            intro target
            exact spared _ target request found live rfl
          · simpa [State.goto, same] using (sound.guarded request found live).spared other } }

theorem Sound.put (sound : Sound settings q s) (entry : Entry) (node : Option Node)
    (used : node ≠ none → entry ∈ s.used)
    (young : ∀ directory, node = some (.directory directory) → ∀ request,
      s.requests q = some request → request.live = true → request.began ≤ directory.mtimeMs)
    (kept : ∀ request, s.requests q = some request → request.live = true →
      request.entry = entry → ∀ file ∈ request.files,
        ∃ directory, node = some (.directory directory) ∧ file ∈ directory.files) :
    Sound settings q (s.put entry node) :=
  { sound with
    used := fun other present => by
      by_cases same : other = entry
      · subst same
        exact used (by simpa [State.put] using present)
      · exact sound.used other (by simpa [State.put, same] using present)
    guarded := fun request found live =>
      have before := sound.guarded request found live
      { before with
        young := fun directory => by
          by_cases same : request.entry = entry
          · simp only [State.put, same, Function.update_self]
            exact fun stored => young directory stored request found live
          · simpa [State.put, same] using before.young directory
        kept := fun file member => by
          by_cases same : request.entry = entry
          · simpa [State.put, same] using kept request found live same file member
          · simpa [State.put, same] using before.kept file member } }

theorem Sound.request (sound : Sound settings q s) {request : Request}
    (known : request.entry ∈ s.used ∧ request.began ≤ s.now)
    (guarded : p = q → request.live = true → Safe settings s request) :
    Sound settings q (s.request p request) :=
  { sound with
    requests := fun other found present => by
      by_cases same : other = p
      · subst same
        simp only [State.request, Function.update_self, Option.some.injEq] at present
        exact present ▸ known
      · exact sound.requests other found (by simpa [State.request, same] using present)
    guarded := fun found present live => by
      by_cases same : q = p
      · subst same
        simp only [State.request, Function.update_self, Option.some.injEq] at present
        subst present
        exact { guarded rfl live with }
      · exact { sound.guarded found (by simpa [State.request, same] using present) live with } }

end Updates

/-- The sweep's own guard refuses no entry of a root that is not that of the file system. -/
theorem isWithinRoot_entryPath (settings : Settings)
    (further : placeOf settings.start settings.configured ≠ []) (entry : Entry) :
    isWithinRoot settings.cwd settings.rootPath (settings.entryPath entry) = true := by
  have names := placeOf_names settings.start settings.configured
  have longer := names.append entry.valid
  have root : settings.rootPath = render signs (placeOf settings.start settings.configured) :=
    resolve_single settings.start settings.configured
  have filled : render signs (placeOf settings.start settings.configured) ≠ [] :=
    List.cons_ne_nil _ _
  have joined : settings.entryPath entry =
      normalize (settings.rootPath ++ signs.slash :: entry.name) := by
    simp [Settings.entryPath, join, root, filled, entry.valid.ne_nil]
  have absolute : isAbsolute (settings.rootPath ++ signs.slash :: entry.name) = true := by
    simp [root, isAbsolute, render]
  have path : placeOf settings.cwd (settings.entryPath entry) =
      placeOf settings.start settings.configured ++ [entry.name] := by
    rw [joined, placeOf_normalize absolute, placeOf_absolute absolute, walk_append, root,
      walk_render names, entry.valid.walk]
  have resolved : resolve settings.cwd [settings.entryPath entry] =
      resolve settings.cwd
        [render signs (placeOf settings.start settings.configured ++ [entry.name])] := by
    rw [resolve_single, path, resolve_render settings.cwd longer]
  rw [isWithinRoot, resolved, root]
  exact (isWithinRoot_child names entry.valid).mpr further

section Steps

variable {settings : Settings} {s t : State} {w : SweepId} {p q : RequestId}

theorem Sound.next (sound : Sound settings q s) (sweep : Sweep) (pending : List Entry)
    (named : ∀ entry ∈ pending, entry ∈ s.used) (clock : sweep.now ≤ s.now) :
    Sound settings q (s.goto w (nextEntry sweep pending)) := by
  cases pending with
  | nil =>
      exact sound.goto _ (fun _ member => by cases member) (fun _ read => by cases read)
        (fun _ target => by cases target)
  | cons entry rest =>
      refine sound.goto _ named (fun now read => ?_) (fun _ target => by cases target)
      cases read
      exact clock

theorem sound_begin {entry : Entry} (sound : Sound settings q s)
    (fresh : p = q → entry ∉ s.used) (taken : stepBegin s p entry = some t) :
    Sound settings q t := by
  unfold stepBegin at taken
  split at taken <;> cases taken
  have wider : Sound settings q { s with used := entry :: s.used } :=
    { sound with
      used := fun other present => List.mem_cons_of_mem _ (sound.used other present)
      named := fun w other member => List.mem_cons_of_mem _ (sound.named w other member)
      requests := fun p request found =>
        ⟨List.mem_cons_of_mem _ (sound.requests p request found).1,
          (sound.requests p request found).2⟩
      guarded := fun request found live => { sound.guarded request found live with } }
  refine wider.request ⟨List.mem_cons_self, le_rfl⟩ fun own _ => ?_
  have absent : s.entries entry = none := by
    by_contra present
    exact fresh own (sound.used entry present)
  refine
    { prompt := Nat.le_add_right _ _
      young := fun directory stored => ?_
      spared := fun w target => ?_
      kept := fun file member => by cases member }
  · rw [absent] at stored
    cases stored
  · apply fresh own
    apply sound.named w
    cases phase : s.sweeps w <;> rw [phase] at target <;> cases target
    exact List.mem_cons_self

theorem sound_mkdir (sound : Sound settings q s) (taken : stepMkdir s p = some t) :
    Sound settings q t := by
  unfold stepMkdir at taken
  split at taken
  · rename_i request found
    split at taken
    · split at taken <;> cases taken
      · rename_i absent
        have made : Sound settings q (s.put request.entry (some (.directory ⟨s.now, []⟩))) := by
          refine sound.put _ _ (fun _ => (sound.requests p request found).1) ?_ ?_
          · intro directory stored request' found' _
            cases stored
            exact (sound.requests q request' found').2
          · intro request' found' live same file member
            obtain ⟨directory, present, _⟩ :=
              (sound.guarded request' found' live).kept file member
            rw [same, absent] at present
            cases present
        exact { made with
          guarded := fun request found live => { made.guarded request found live with } }
      · exact sound
      · exact sound.request (sound.requests p request found) fun _ live => by cases live
    · cases taken
  · cases taken

theorem sound_create {file : FileId} (sound : Sound settings q s)
    (taken : stepCreate s p file = some t) : Sound settings q t := by
  unfold stepCreate at taken
  split at taken
  · rename_i request found
    have known := sound.requests p request found
    split at taken
    · rename_i live
      split at taken <;> cases taken
      · rename_i directory present
        have written : Sound settings q (s.put request.entry
            (some (.directory ⟨s.now, directory.files ++ [file]⟩))) := by
          refine sound.put _ _ (fun _ => known.1) ?_ ?_
          · intro directory' stored request' found' _
            cases stored
            exact (sound.requests q request' found').2
          · intro request' found' live' same old member
            obtain ⟨directory', present', inside⟩ :=
              (sound.guarded request' found' live').kept old member
            rw [same, present] at present'
            cases present'
            exact ⟨_, rfl, List.mem_append_left _ inside⟩
        refine written.request known fun own _ => ?_
        have after := written.guarded request (own ▸ found) live
        refine { after with kept := fun other member => ?_ }
        rcases List.mem_append.mp member with old | new
        · exact after.kept other old
        · refine ⟨⟨s.now, directory.files ++ [file]⟩, by simp [State.put], ?_⟩
          exact List.mem_append_right _ new
      · exact sound.request known fun _ live => by cases live
    · cases taken
  · cases taken

theorem sound_finish (sound : Sound settings q s) (taken : stepFinish s p = some t) :
    Sound settings q t := by
  unfold stepFinish at taken
  split at taken <;> cases taken
  rename_i request found
  exact sound.request (sound.requests p request found) fun _ live => by cases live

theorem sound_readdir {entries : Option (List Entry)} (sound : Sound settings q s)
    (listing : Listing s (.readdir w entries)) (taken : stepReaddir s w entries = some t) :
    Sound settings q t := by
  unfold stepReaddir at taken
  split at taken <;> cases taken
  split
  · exact sound.goto _ (fun _ member => by cases member) (fun _ read => by cases read)
      (fun _ target => by cases target)
  · refine sound.goto _ (fun entry member => ?_) (fun _ read => by cases read)
      (fun _ target => by cases target)
    exact sound.used entry ((listing entry).mp member)
  · exact sound.goto _ (fun _ member => by cases member) (fun _ read => by cases read)
      (fun _ target => by cases target)

theorem sound_clock (sound : Sound settings q s) (taken : stepClock s w = some t) :
    Sound settings q t := by
  unfold stepClock at taken
  split at taken <;> cases taken
  rename_i readAt entries phase
  have named := sound.named w
  rw [phase] at named
  exact sound.next _ entries named le_rfl

/-- What is old enough to be removed does not belong to this request while it is live. -/
theorem sound_stat {found : Bool} (sound : Sound settings q s)
    (taken : stepStat settings s w found = some t) : Sound settings q t := by
  unfold stepStat at taken
  split at taken <;> cases taken
  rename_i sweep entry pending phase
  have named := sound.named w
  have clock := sound.clocks w sweep.now (by rw [phase]; rfl)
  rw [phase] at named
  have rest : ∀ other ∈ pending, other ∈ s.used :=
    fun other member => named other (List.mem_cons_of_mem _ member)
  split
  · rename_i directory present
    split
    · rename_i old
      split
      · refine sound.goto _ named (fun now read => ?_) (fun target aimed request there live => ?_)
        · cases read
          exact clock
        · cases aimed
          rintro rfl
          have guarded := sound.guarded request there live
          have overdue : request.began + settings.maxAgeMs < s.now :=
            Nat.lt_of_le_of_lt (Nat.add_le_add_right (guarded.young directory present) _)
              (Nat.lt_of_lt_of_le old clock)
          exact absurd guarded.prompt (Nat.not_le_of_lt overdue)
      · exact sound.goto _ (fun _ member => by cases member) (fun _ read => by cases read)
          (fun _ target => by cases target)
    · exact sound.next sweep pending rest clock
  · exact sound.next sweep pending rest clock

/-- A removal leaves a live request alone. -/
theorem Sound.away (sound : Sound settings q s) {sweep : Sweep} {entry : Entry}
    {pending : List Entry} (phase : s.sweeps w = .removing sweep entry pending) :
    ∀ request, s.requests q = some request → request.live = true → request.entry ≠ entry := by
  rintro request found live rfl
  exact (sound.guarded request found live).spared w (by rw [phase]; rfl)

theorem sound_unlink {file : FileId} (sound : Sound settings q s)
    (taken : stepUnlink s w file = some t) : Sound settings q t := by
  unfold stepUnlink at taken
  split at taken
  · rename_i sweep entry pending phase
    have away := sound.away phase
    split at taken
    · split at taken <;> cases taken
      refine sound.put _ _ (fun _ => ?_) ?_ ?_
      · exact sound.named w entry (by rw [phase]; exact List.mem_cons_self)
      · intro directory stored request found _
        cases stored
        exact (sound.requests q request found).2
      · exact fun request found live same => absurd same (away request found live)
    · cases taken
  · cases taken

theorem sound_rmdir (sound : Sound settings q s) (taken : stepRmdir s w = some t) :
    Sound settings q t := by
  unfold stepRmdir at taken
  split at taken
  · rename_i sweep entry pending phase
    have away := sound.away phase
    have named := sound.named w
    have clock := sound.clocks w sweep.now (by rw [phase]; rfl)
    rw [phase] at named
    have gone : Sound settings q (s.put entry none) := by
      refine sound.put _ _ (fun present => absurd rfl present) (fun _ stored => by cases stored) ?_
      exact fun request found live same => absurd same (away request found live)
    have next := gone.next (w := w) { sweep with removed := sweep.removed ++ [entry] } pending
      (fun other member => named other (List.mem_cons_of_mem _ member)) clock
    split at taken
    · split at taken <;> cases taken
      exact next
    · cases taken
      exact next
  · cases taken

theorem sound_step {event : Event} (sound : Sound settings q s)
    (orderly : Orderly settings q s event) (taken : step settings s event = some t) :
    Sound settings q t := by
  cases event with
  | tick duration =>
      cases taken
      exact
        { sound with
          clocks := fun w now read => Nat.le_add_right_of_le (sound.clocks w now read)
          requests := fun p request found => ⟨(sound.requests p request found).1,
            Nat.le_add_right_of_le (sound.requests p request found).2⟩
          guarded := fun request found live =>
            { sound.guarded request found live with prompt := orderly.2 request found live } }
  | begin p randomUUID incoming => exact sound_begin sound orderly.2 taken
  | mkdir p => exact sound_mkdir sound taken
  | create p file => exact sound_create sound taken
  | finish p => exact sound_finish sound taken
  | sweep w =>
      simp only [step, stepSweep] at taken
      split at taken <;> cases taken
      exact sound.goto _ (fun _ member => by cases member) (fun _ read => by cases read)
        (fun _ target => by cases target)
  | readdir w entries => exact sound_readdir sound orderly.1 taken
  | clock w => exact sound_clock sound taken
  | stat w found => exact sound_stat sound taken
  | unlink w file => exact sound_unlink sound taken
  | rmdir w => exact sound_rmdir sound taken
  | fail w =>
      simp only [step, stepFail] at taken
      split at taken <;> cases taken
      exact sound.goto _ (fun _ member => by cases member) (fun _ read => by cases read)
        (fun _ target => by cases target)

theorem sound_of_reachable (reached : (machine settings).Reachable (Orderly settings q) s) :
    Sound settings q s := by
  apply reached.invariant
  · rintro s ⟨unasked, idle, used⟩
    exact
      { used := fun entry present => (used entry present).1
        named := fun w entry member => by
          rw [idle w] at member
          cases member
        clocks := fun w now read => by
          rw [idle w] at read
          cases read
        requests := fun p request found => by cases (unasked p).symm.trans found
        guarded := fun request found => by cases (unasked q).symm.trans found }
  · exact fun s event t orderly taken sound => sound_step sound orderly taken

/-- No removal of a sweep touches the directory of this request while it is live. -/
theorem entries_of_removal {event : Event} (sound : Sound settings q s)
    (removes : event.removes = true) (taken : step settings s event = some t) {request : Request}
    (found : s.requests q = some request) (live : request.live = true) :
    t.entries request.entry = s.entries request.entry := by
  cases event with
  | unlink w file =>
      simp only [step, stepUnlink] at taken
      split at taken
      · rename_i sweep entry pending phase
        have different := sound.away phase request found live
        repeat' split at taken
        all_goals cases taken
        simp [State.put, different]
      · cases taken
  | rmdir w =>
      simp only [step, stepRmdir] at taken
      split at taken
      · rename_i sweep entry pending phase
        have different := sound.away phase request found live
        repeat' split at taken
        all_goals cases taken
        all_goals simp [State.put, State.goto, different]
      · cases taken
  | _ => cases removes

end Steps

/-- What a sweep has done so far. A directory that it has passed is gone, young enough, or younger
than its listing. -/
def Passed (settings : Settings) (s : State) (sweep : Sweep) (pending : List Entry) : Prop :=
  sweep.readAt ≤ s.now ∧ sweep.now ≤ s.now ∧ ∀ entry directory,
    s.entries entry = some (.directory directory) → entry ∉ pending →
      sweep.now ≤ directory.mtimeMs + settings.maxAgeMs ∨ sweep.readAt ≤ directory.mtimeMs

/-- The progress of one sweep. -/
def Progress (settings : Settings) (s : State) : Phase → Prop
  | .listed readAt entries => readAt ≤ s.now ∧ ∀ entry directory,
      s.entries entry = some (.directory directory) → entry ∉ entries →
        readAt ≤ directory.mtimeMs
  | .checking sweep pending => Passed settings s sweep pending
  | .removing sweep entry pending => Passed settings s sweep (entry :: pending)
  | .returned sweep => Passed settings s sweep []
  | _ => True

/-- An event that touches a directory sets its time. -/
def Touched (s t : State) : Prop :=
  s.now ≤ t.now ∧ ∀ entry directory, t.entries entry = some (.directory directory) →
    s.now ≤ directory.mtimeMs ∨ ∃ before, s.entries entry = some (.directory before) ∧
      before.mtimeMs = directory.mtimeMs

section Progress

variable {settings : Settings} {s t : State} {w : SweepId} {q : RequestId}

theorem Passed.touched {sweep : Sweep} {pending : List Entry} (touched : Touched s t)
    (passed : Passed settings s sweep pending) : Passed settings t sweep pending := by
  obtain ⟨read, clock, each⟩ := passed
  refine ⟨Nat.le_trans read touched.1, Nat.le_trans clock touched.1, ?_⟩
  intro entry directory present outside
  rcases touched.2 entry directory present with now | ⟨before, stored, same⟩
  · exact .inr (Nat.le_trans read now)
  · exact same ▸ each entry before stored outside

theorem Progress.touched {phase : Phase} (touched : Touched s t)
    (progress : Progress settings s phase) : Progress settings t phase := by
  cases phase with
  | idle | reading | refused | threw => trivial
  | listed readAt entries =>
      obtain ⟨read, each⟩ := progress
      refine ⟨Nat.le_trans read touched.1, fun entry directory present outside => ?_⟩
      rcases touched.2 entry directory present with now | ⟨before, stored, same⟩
      · exact Nat.le_trans read now
      · exact same ▸ each entry before stored outside
  | checking sweep pending => exact Passed.touched touched progress
  | removing sweep entry pending => exact Passed.touched touched progress
  | returned sweep => exact Passed.touched touched progress

theorem touched_put (s : State) (entry : Entry) (node : Option Node)
    (young : ∀ directory, node = some (.directory directory) → s.now ≤ directory.mtimeMs) :
    Touched s (s.put entry node) := by
  refine ⟨le_rfl, fun other directory present => ?_⟩
  by_cases same : other = entry
  · subst same
    simp only [State.put, Function.update_self] at present
    exact .inl (young directory present)
  · exact .inr ⟨directory, by simpa [State.put, same] using present, rfl⟩

theorem touched_of_entries (now : s.now ≤ t.now) (entries : t.entries = s.entries) :
    Touched s t :=
  ⟨now, fun _ directory present => .inr ⟨directory, entries ▸ present, rfl⟩⟩

theorem Passed.next {sweep : Sweep} {pending : List Entry}
    (passed : Passed settings s sweep pending) : Progress settings s (nextEntry sweep pending) := by
  cases pending with
  | nil => exact passed
  | cons entry rest => exact passed

/-- One event leaves the other sweeps where they are. -/
structure Advances (settings : Settings) (s t : State) : Prop where
  touched : Touched s t
  sweeps : ∀ w, t.sweeps w = s.sweeps w ∨ Progress settings t (t.sweeps w)

theorem advances_of_sweeps (touched : Touched s t) (sweeps : t.sweeps = s.sweeps) :
    Advances settings s t :=
  ⟨touched, fun w => .inl (congrFun sweeps w)⟩

theorem advances_goto (touched : Touched s t) (phase : Phase)
    (sweeps : t.sweeps = Function.update s.sweeps w phase) (progress : Progress settings t phase) :
    Advances settings s t := by
  refine ⟨touched, fun other => ?_⟩
  by_cases same : other = w
  · subst same
    rw [sweeps, Function.update_self]
    exact .inr progress
  · rw [sweeps, Function.update_of_ne same]
    exact .inl rfl

/-- Requests only add to the root. -/
theorem advances_request {event : Event} (ofRequest : (∃ q, event = .mkdir q) ∨
      (∃ q file, event = .create q file) ∨ ∃ q, event = .finish q)
    (taken : step settings s event = some t) : Advances settings s t := by
  rcases ofRequest with ⟨q, rfl⟩ | ⟨q, file, rfl⟩ | ⟨q, rfl⟩
  · simp only [step, stepMkdir] at taken
    repeat' split at taken
    all_goals cases taken
    · refine advances_of_sweeps (touched_put s _ _ fun directory made => ?_) rfl
      cases made
      exact le_rfl
    · exact advances_of_sweeps (touched_of_entries le_rfl rfl) rfl
    · exact advances_of_sweeps (touched_of_entries le_rfl rfl) rfl
  · simp only [step, stepCreate] at taken
    repeat' split at taken
    all_goals cases taken
    · refine advances_of_sweeps (touched_put s _ _ fun directory made => ?_) rfl
      cases made
      exact le_rfl
    · exact advances_of_sweeps (touched_of_entries le_rfl rfl) rfl
  · simp only [step, stepFinish] at taken
    split at taken <;> cases taken
    exact advances_of_sweeps (touched_of_entries le_rfl rfl) rfl

theorem advances_readdir {entries : Option (List Entry)}
    (rooted : ∀ entry, s.entries entry ≠ none → s.rootExists = true)
    (listing : Listing s (.readdir w entries)) (taken : stepReaddir s w entries = some t) :
    Advances settings s t := by
  unfold stepReaddir at taken
  split at taken <;> cases taken
  refine advances_goto (touched_of_entries le_rfl rfl) _ rfl ?_
  split
  · rename_i missing
    refine ⟨le_rfl, le_rfl, fun entry directory present _ => ?_⟩
    have there := rooted entry (by rw [show s.entries entry = _ from present]; simp)
    rw [missing] at there
    cases there
  · refine ⟨le_rfl, fun entry directory present outside => ?_⟩
    refine absurd ((listing entry).mpr ?_) outside
    rw [show s.entries entry = _ from present]
    simp
  · trivial

theorem advances_clock (progress : Progress settings s (s.sweeps w))
    (taken : stepClock s w = some t) : Advances settings s t := by
  unfold stepClock at taken
  split at taken <;> cases taken
  rename_i readAt entries phase
  rw [phase] at progress
  refine advances_goto (touched_of_entries le_rfl rfl) _ rfl (Passed.next ?_)
  exact ⟨progress.1, le_rfl, fun entry directory present outside =>
    .inr (progress.2 entry directory present outside)⟩

/-- A directory that is not removed is young enough. -/
theorem advances_stat (progress : Progress settings s (s.sweeps w))
    (taken : stepStat settings s w true = some t) : Advances settings s t := by
  unfold stepStat at taken
  split at taken <;> cases taken
  rename_i sweep entry pending phase
  rw [phase] at progress
  obtain ⟨read, clock, each⟩ := progress
  refine advances_goto (touched_of_entries le_rfl rfl) _ rfl ?_
  have further (young : ∀ directory, s.entries entry = some (.directory directory) →
      sweep.now ≤ directory.mtimeMs + settings.maxAgeMs) :
      Progress settings s (nextEntry sweep pending) := by
    refine Passed.next ⟨read, clock, fun other directory present outside => ?_⟩
    by_cases same : other = entry
    · subst same
      exact .inl (young directory present)
    · exact each other directory present (by simp [same, outside])
  split
  · rename_i directory _ present
    split
    · split
      · exact ⟨read, clock, each⟩
      · trivial
    · rename_i young
      refine further fun directory' present' => ?_
      cases present.symm.trans present'
      exact Nat.le_of_not_lt young
  · rename_i other
    refine further fun directory present => ?_
    exact absurd present (other directory rfl)

theorem advances_unlink {file : FileId} (taken : stepUnlink s w file = some t) :
    Advances settings s t := by
  unfold stepUnlink at taken
  repeat' split at taken
  all_goals cases taken
  refine advances_of_sweeps (touched_put s _ _ fun directory made => ?_) rfl
  cases made
  exact le_rfl

theorem advances_rmdir (progress : Progress settings s (s.sweeps w))
    (taken : stepRmdir s w = some t) : Advances settings s t := by
  unfold stepRmdir at taken
  split at taken
  · rename_i sweep entry pending phase
    rw [phase] at progress
    have touched := touched_put s entry none fun directory made => by cases made
    have passed := Passed.touched touched progress
    have next : Progress settings (s.put entry none)
        (nextEntry { sweep with removed := sweep.removed ++ [entry] } pending) := by
      refine Passed.next ⟨passed.1, passed.2.1, fun other directory present outside => ?_⟩
      have different : other ≠ entry := by
        rintro rfl
        simp [State.put] at present
      exact passed.2.2 other directory present (by simp [different, outside])
    split at taken
    · split at taken <;> cases taken
      exact advances_goto touched _ rfl next
    · cases taken
      exact advances_goto touched _ rfl next
  · cases taken

theorem advances_step {event : Event} (progress : ∀ w, Progress settings s (s.sweeps w))
    (rooted : ∀ entry, s.entries entry ≠ none → s.rootExists = true)
    (complete : Complete s event) (taken : step settings s event = some t) :
    Advances settings s t := by
  cases event with
  | tick duration =>
      cases taken
      exact advances_of_sweeps (touched_of_entries (Nat.le_add_right _ _) rfl) rfl
  | begin q randomUUID incoming =>
      simp only [step, stepBegin] at taken
      split at taken <;> cases taken
      exact advances_of_sweeps (touched_of_entries le_rfl rfl) rfl
  | mkdir q => exact advances_request (.inl ⟨q, rfl⟩) taken
  | create q file => exact advances_request (.inr (.inl ⟨q, file, rfl⟩)) taken
  | finish q => exact advances_request (.inr (.inr ⟨q, rfl⟩)) taken
  | sweep w =>
      simp only [step, stepSweep] at taken
      split at taken <;> cases taken
      exact advances_goto (touched_of_entries le_rfl rfl) .reading rfl trivial
  | readdir w entries => exact advances_readdir rooted complete.1 taken
  | clock w => exact advances_clock (progress w) taken
  | stat w found =>
      obtain rfl : found = true := complete.2
      exact advances_stat (progress w) taken
  | unlink w file => exact advances_unlink taken
  | rmdir w => exact advances_rmdir (progress w) taken
  | fail w =>
      simp only [step, stepFail] at taken
      split at taken <;> cases taken
      exact advances_goto (touched_of_entries le_rfl rfl) .threw rfl trivial

theorem rooted_put (rooted : ∀ entry, s.entries entry ≠ none → s.rootExists = true)
    (entry : Entry) (node : Option Node) (known : node ≠ none → s.rootExists = true) :
    ∀ other, (s.put entry node).entries other ≠ none → s.rootExists = true := by
  intro other present
  by_cases same : other = entry
  · subst same
    exact known (by simpa [State.put] using present)
  · exact rooted other (by simpa [State.put, same] using present)

/-- Nothing is in the root before there is one. -/
theorem rooted_step {event : Event} (rooted : ∀ entry, s.entries entry ≠ none → s.rootExists = true)
    (taken : step settings s event = some t) :
    ∀ entry, t.entries entry ≠ none → t.rootExists = true := by
  have held {entry : Entry} {node : Node} (present : s.entries entry = some node) :
      s.rootExists = true := rooted entry (by rw [present]; simp)
  cases event with
  | tick | sweep | finish | begin | readdir | clock | stat | fail =>
      simp only [step, stepSweep, stepFinish, stepBegin, stepReaddir, stepClock, stepStat,
        stepFail] at taken
      repeat' split at taken
      all_goals cases taken
      all_goals exact rooted
  | mkdir q =>
      simp only [step, stepMkdir] at taken
      repeat' split at taken
      all_goals cases taken
      · exact fun _ _ => rfl
      · exact rooted
      · exact rooted
  | create q file =>
      simp only [step, stepCreate] at taken
      repeat' split at taken
      all_goals cases taken
      · exact rooted_put rooted _ _ fun _ => held ‹_›
      · exact rooted
  | unlink w file =>
      simp only [step, stepUnlink] at taken
      repeat' split at taken
      all_goals cases taken
      exact rooted_put rooted _ _ fun _ => held ‹_›
  | rmdir w =>
      simp only [step, stepRmdir] at taken
      repeat' split at taken
      all_goals cases taken
      all_goals exact rooted_put rooted _ _ fun present => absurd rfl present

theorem rooted_of_reachable {guard : State → Event → Prop}
    (reached : (machine settings).Reachable guard s) :
    ∀ entry, s.entries entry ≠ none → s.rootExists = true := by
  apply reached.invariant
  · exact fun s initial entry present => (initial.2.2 entry present).2
  · exact fun s event t _ taken rooted => rooted_step rooted taken

theorem progress_of_reachable (reached : (machine settings).Reachable Complete s) :
    ∀ w, Progress settings s (s.sweeps w) := by
  apply reached.strengthen (fun s => ∀ entry, s.entries entry ≠ none → s.rootExists = true)
    fun _ => rooted_of_reachable
  · rintro s ⟨_, idle, _⟩ w
    rw [idle w]
    trivial
  · intro s event t rooted _ complete taken progress w
    have advances := advances_step progress rooted complete taken
    rcases advances.sweeps w with same | new
    · rw [same]
      exact (progress w).touched advances.touched
    · exact new

end Progress

/-- No path of a sweep is refused. -/
def Unrefused (s : State) : Prop := ∀ w path, s.sweeps w ≠ .refused path

theorem unrefused_goto {s : State} (unrefused : Unrefused s) (w : SweepId) (phase : Phase)
    (next : ∀ path, phase ≠ .refused path) : Unrefused (s.goto w phase) := by
  intro other path
  by_cases same : other = w
  · subst same
    simpa [State.goto] using next path
  · simpa [State.goto, same] using unrefused other path

theorem nextEntry_ne_refused (sweep : Sweep) (pending : List Entry) (path : Text) :
    nextEntry sweep pending ≠ .refused path := by
  cases pending <;> simp [nextEntry]

theorem unrefused_step {settings : Settings} {s t : State} {event : Event}
    (further : placeOf settings.start settings.configured ≠ []) (unrefused : Unrefused s)
    (taken : step settings s event = some t) : Unrefused t := by
  cases event with
  | tick | begin | mkdir | create | finish | unlink =>
      simp only [step, stepBegin, stepMkdir, stepCreate, stepFinish, stepUnlink] at taken
      repeat' split at taken
      all_goals cases taken
      all_goals exact unrefused
  | sweep w | fail w =>
      simp only [step, stepSweep, stepFail] at taken
      repeat' split at taken
      all_goals cases taken
      all_goals exact unrefused_goto unrefused w _ (by simp)
  | readdir w entries =>
      simp only [step, stepReaddir] at taken
      split at taken <;> cases taken
      apply unrefused_goto unrefused
      intro path
      split <;> simp
  | clock w =>
      simp only [step, stepClock] at taken
      split at taken <;> cases taken
      exact unrefused_goto unrefused w _ (nextEntry_ne_refused _ _)
  | stat w found =>
      simp only [step, stepStat] at taken
      split at taken <;> cases taken
      apply unrefused_goto unrefused
      intro path
      rw [if_pos (isWithinRoot_entryPath settings further _)]
      repeat' split
      all_goals first | exact nextEntry_ne_refused _ _ path | simp
  | rmdir w =>
      simp only [step, stepRmdir] at taken
      repeat' split at taken
      all_goals cases taken
      all_goals exact unrefused_goto unrefused w _ (nextEntry_ne_refused _ _)

/-- What the sweep takes and what it leaves. -/
structure SweepLaw (settings : Settings) (m : Machine State Event) : Prop where
  /-- The files of a request that is orderly stay, whatever the other requests do. -/
  kept : ∀ q s, m.Reachable (Orderly settings q) s → ∀ request, s.requests q = some request →
    request.live = true → ∀ file ∈ request.files, ∃ directory,
      s.entries request.entry = some (.directory directory) ∧ file ∈ directory.files
  away : ∀ q s event t, m.Reachable (Orderly settings q) s → event.removes = true →
    m.step s event = some t → ∀ request, s.requests q = some request → request.live = true →
      t.entries request.entry = s.entries request.entry
  complete : ∀ s, m.Reachable Complete s → ∀ w sweep, s.sweeps w = .returned sweep →
    ∀ entry directory, s.entries entry = some (.directory directory) →
      sweep.now ≤ directory.mtimeMs + settings.maxAgeMs ∨ sweep.readAt ≤ directory.mtimeMs
  unrefused : placeOf settings.start settings.configured ≠ [] →
    ∀ s, m.Reachable Machine.anything s → ∀ w path, s.sweeps w ≠ .refused path

/-- No sweep takes anything of a live request whose id is its own and whose upload is not too old. A
sweep that returns has left no old directory, and its own guard never stops it. -/
theorem sweep_law (settings : Settings) : SweepLaw settings (machine settings) where
  kept q s reached request found live :=
    ((sound_of_reachable reached).guarded request found live).kept
  away q s event t reached removes taken request found live :=
    entries_of_removal (sound_of_reachable reached) removes taken found live
  complete s reached w sweep returned entry directory present := by
    have progress := progress_of_reachable reached w
    rw [returned] at progress
    exact progress.2.2 entry directory present List.not_mem_nil
  unrefused further s reached := by
    apply reached.invariant
    · rintro s ⟨_, idle, _⟩ w path
      rw [idle w]
      simp
    · exact fun s event t _ taken unrefused => unrefused_step further unrefused taken

/-- Steps of a sweep and of requests with new ids, without waiting and without failures. -/
def Immediate (s : State) : Event → Prop
  | .tick _ | .readdir _ _ => False
  | .begin _ randomUUID incoming => requestEntry randomUUID incoming ∉ s.used
  | .stat _ found => found = true
  | _ => True

def OrderlyComplete (settings : Settings) (q : RequestId) (s : State) (event : Event) : Prop :=
  Orderly settings q s event ∧ Complete s event

instance (s : State) (event : Event) : Decidable (Immediate s event) := by
  unfold Immediate
  split <;> infer_instance

theorem orderlyComplete_of_immediate {settings : Settings} {q : RequestId} (s : State)
    (event : Event) (immediate : Immediate s event) : OrderlyComplete settings q s event := by
  cases event with
  | tick | readdir => exact immediate.elim
  | begin => exact ⟨⟨trivial, fun _ => immediate⟩, trivial, trivial⟩
  | stat => exact ⟨⟨trivial, trivial⟩, trivial, immediate⟩
  | _ => exact ⟨⟨trivial, trivial⟩, trivial, trivial⟩

def hourSettings : Settings where
  start := Workspaces.service
  cwd := Workspaces.service
  configured := Text.ofString "/tmp/uploads"
  temporaryMaxAgeMinutes := 60

def oldEntry : Entry := ⟨Text.ofString "old", by constructor <;> decide⟩

def newEntry : Entry := ⟨Text.ofString "new", by constructor <;> decide⟩

def zeroUuid : Uuid where
  text := List.replicate 36 0x30
  length_eq := List.length_replicate
  hexadecimal unit member := by
    rw [List.eq_of_mem_replicate member]
    decide

/-- An earlier process has left one directory. -/
def leftOver : State where
  now := 7200000
  rootExists := true
  entries := Function.update (fun _ => none) oldEntry (some (.directory ⟨0, [7]⟩))
  requests _ := none
  sweeps _ := .idle
  used := [oldEntry]

/-- A new request has written a file when the sweep reads the root. -/
def uploading : State :=
  ((machine hourSettings).execute Immediate leftOver
    [.begin 0 zeroUuid (some newEntry.name), .mkdir 0, .create 0 1, .sweep 0]).getD leftOver

def listing : State := uploading.goto 0 (.listed 7200000 [oldEntry, newEntry])

def swept : State :=
  ((machine hourSettings).execute Immediate listing
    [.clock 0, .stat 0 true, .unlink 0 7, .rmdir 0, .stat 0 true]).getD listing

/-- When a sweep that has returned read the root and the clock. -/
def Phase.times : Phase → Option (Time × Time)
  | .returned sweep => some (sweep.readAt, sweep.now)
  | _ => none

theorem Phase.times_eq_some {phase : Phase} {readAt now : Time}
    (times : phase.times = some (readAt, now)) :
    ∃ sweep, phase = .returned sweep ∧ sweep.readAt = readAt ∧ sweep.now = now := by
  cases phase with
  | returned sweep =>
      cases times
      exact ⟨sweep, rfl, rfl, rfl⟩
  | _ => cases times

/-- The sweep removes the old directory and leaves the new file. -/
theorem sweep_law_swept : (machine hourSettings).Reachable (OrderlyComplete hourSettings 0) swept ∧
    (swept.sweeps 0).removed = some [oldEntry] ∧ swept.entries oldEntry = none ∧
      (∀ entry directory, swept.entries entry = some (.directory directory) →
        7200000 ≤ directory.mtimeMs + hourSettings.maxAgeMs ∨ 7200000 ≤ directory.mtimeMs) ∧
      ∃ request directory, swept.requests 0 = some request ∧
        request.live = true ∧ swept.entries request.entry = some (.directory directory) ∧
          1 ∈ directory.files := by
  have uploads : (machine hourSettings).execute Immediate leftOver
      [.begin 0 zeroUuid (some newEntry.name), .mkdir 0, .create 0 1, .sweep 0] =
        some uploading := rfl
  have sweeps : (machine hourSettings).execute Immediate listing
      [.clock 0, .stat 0 true, .unlink 0 7, .rmdir 0, .stat 0 true] = some swept := rfl
  have initial : (machine hourSettings).initial leftOver := by
    refine ⟨fun _ => rfl, fun _ => rfl, fun entry present => ⟨?_, rfl⟩⟩
    by_cases old : entry = oldEntry
    · exact List.mem_singleton.mpr old
    · have absent : leftOver.entries entry = none := by simp [leftOver, old]
      exact absurd absent present
  have listed : Listing uploading (.readdir 0 (some [oldEntry, newEntry])) := by
    have entries : uploading.entries = Function.update (Function.update leftOver.entries newEntry
        (some (.directory ⟨7200000, []⟩))) newEntry (some (.directory ⟨7200000, [1]⟩)) := rfl
    intro entry
    rw [entries]
    by_cases new : entry = newEntry
    · simp [new]
    by_cases old : entry = oldEntry
    · have apart : oldEntry ≠ newEntry := by decide
      simp [old, apart, leftOver]
    · simp [new, old, leftOver]
  have path : (machine hourSettings).Path (OrderlyComplete hourSettings 0) leftOver listing :=
    .snoc (.readdir 0 (some [oldEntry, newEntry]))
      ((Machine.path_of_execute _ uploads).mono orderlyComplete_of_immediate)
      ⟨⟨listed, trivial⟩, listed, trivial⟩ rfl
  have reached : (machine hourSettings).Reachable (OrderlyComplete hourSettings 0) swept :=
    ⟨leftOver, initial, path.trans
      ((Machine.path_of_execute _ sweeps).mono orderlyComplete_of_immediate)⟩
  obtain ⟨directory, stored, member⟩ :=
    (sweep_law hourSettings).kept 0 swept (reached.mono fun _ _ => And.left)
      ⟨newEntry, 7200000, [1], true⟩ rfl rfl 1 (List.mem_singleton_self 1)
  obtain ⟨sweep, returned, read, now⟩ := Phase.times_eq_some
    (show (swept.sweeps 0).times = some (7200000, 7200000) by decide +kernel)
  have complete := (sweep_law hourSettings).complete swept (reached.mono fun _ _ => And.right) 0
    sweep returned
  rw [read, now] at complete
  exact ⟨reached, by decide +kernel, rfl, complete, _, directory, rfl, rfl, stored, member⟩

end PostsMedia.UploadSweep
