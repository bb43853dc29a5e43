import ClipSync.Server.Mailbox

/-!
# The steps of the mailbox

Every access of the mailbox changes few of its parts, and the worker goes through the same
phases with every snapshot. Both are told here once: which parts an operation leaves
alone, and from which phase to which the worker goes with a result. What is known in a
phase depends on what is to be proved; that the worker holds the snapshot of its phase, and
that the temporary file is written before it is renamed, is needed everywhere.
-/

namespace ClipSync

open Lib Program

/-! ## What an operation leaves alone -/

inductive MailboxPart where
  | files
  | index
  | dirty
  | queued
  | signals
  | sizes
  | degraded
  | pended
  | taken
deriving DecidableEq

/-- The part is as before. -/
def MailboxPart.Same (m m' : MailboxState) : MailboxPart → Prop
  | .files => m'.fs = m.fs
  | .index => m'.index = m.index
  | .dirty => m'.dirty = m.dirty
  | .queued => m'.queued = m.queued
  | .signals => m'.signals = m.signals
  | .sizes => m'.sizes = m.sizes
  | .degraded => m'.degraded = m.degraded
  | .pended => m'.pended = m.pended
  | .taken => m'.taken = m.taken

def MailboxOp.changes : MailboxOp → List MailboxPart
  | .files _ => [.files]
  | .dirtyInsert .. => [.dirty, .pended]
  | .dirtyRemove _ | .dirtyOrInsert .. => [.dirty, .taken]
  | .indexInsert .. => [.index, .taken]
  | .indexRemove _ => [.index]
  | .queuedInsert _ | .queuedRemove _ => [.queued]
  | .send _ | .select _ => [.signals]
  | .sizesInsert .. | .sizesRemove _ => [.sizes]
  | .storeDegraded _ => [.degraded]
  | _ => []

namespace MailboxState

variable {m m' : MailboxState}

theorem same_of_exec {op : MailboxOp} {r : op.Res} (h : exec op m r m') (part : MailboxPart)
    (hpart : part ∉ op.changes) : part.Same m m' := by
  have hrefl : m' = m → part.Same m m' := by
    rintro rfl
    cases part <;> rfl
  cases op with
  | metadataLen path =>
    cases r with
    | ok size => exact hrefl h.1
    | error e => exact hrefl h
  | unixTimeMs | storeLastError error =>
    cases h
    cases part <;> rfl
  | dirtyGet _ | indexGet _ | indexIter | sizesGet => exact hrefl h.2
  | drain rooms => exact hrefl h.2.2
  | select retry =>
    cases r with
    | none => exact hrefl h.2
    | some roomId =>
      obtain ⟨rest, -, rfl⟩ := h
      cases part <;> first | rfl | simp [MailboxOp.changes] at hpart
  | files op =>
    obtain ⟨fs, -, rfl⟩ := h
    cases part <;> first | rfl | simp [MailboxOp.changes] at hpart
  | dirtyRemove _ | indexRemove _ | queuedInsert _ =>
    obtain ⟨-, rfl⟩ := h
    cases part <;> first | rfl | simp [MailboxOp.changes] at hpart
  | dirtyInsert _ _ | dirtyOrInsert _ _ | indexInsert _ _ | queuedRemove _ | send _
  | sizesInsert _ _ | sizesRemove _ | storeDegraded _ =>
    cases h
    cases part <;> first | rfl | simp [MailboxOp.changes] at hpart

end MailboxState

theorem MailboxOp.nonempty_res (op : MailboxOp) : Nonempty op.Res := by
  cases op with
  | files op => cases op <;> infer_instance
  | _ => infer_instance

/-! ## Schedules -/

/-- What the accesses leave open: the time of the clock, the order in which a set is
listed and which accesses to the files fail. -/
structure MailboxChoice where
  nowMs : Int64 := 0
  order : List String := []
  fails : FsOp Unit → Bool := fun _ => false

namespace MailboxState

def tried (choice : MailboxChoice) :
    (op : MailboxOp) → MailboxState → Option (op.Res × MailboxState)
  | .files op, s =>
    (if choice.fails op then Fs.disturbed op s.fs else Fs.undisturbed op s.fs).map
      fun (r, fs) => (r, { s with fs := fs })
  | .metadataLen path, s =>
    match s.fs.files path with
    | some contents => some (.ok contents.length, s)
    | none => some (.error .notFound, s)
  | .unixTimeMs, s => some (choice.nowMs, s)
  | .dirtyInsert roomId snapshot, s =>
    some ((), { s with dirty := s.dirty.insert roomId snapshot
                       pended := s.pended ++ [(roomId, snapshot)] })
  | .dirtyGet roomId, s => some (s.dirty.lookup roomId, s)
  | .dirtyRemove roomId, s =>
    some (s.dirty.lookup roomId,
      { s with dirty := s.dirty.erase roomId
               taken := (s.dirty.lookup roomId).map fun x => (roomId, x) })
  | .dirtyOrInsert roomId snapshot, s =>
    some ((), { s with dirty := if roomId ∈ s.dirty then s.dirty
                         else s.dirty.insert roomId snapshot
                       taken := none })
  | .indexInsert roomId snapshot, s =>
    some ((), { s with index := s.index.insert roomId snapshot, taken := none })
  | .indexGet roomId, s => some (s.index.lookup roomId, s)
  | .indexRemove roomId, s =>
    some (s.index.lookup roomId, { s with index := s.index.erase roomId })
  | .indexIter, s => some (s.index, s)
  | .queuedInsert roomId, s =>
    some (decide (roomId ∉ s.queued), { s with queued := insert roomId s.queued })
  | .queuedRemove roomId, s => some ((), { s with queued := s.queued.erase roomId })
  | .send roomId, s => some ((), { s with signals := s.signals ++ [roomId] })
  | .select retry, s =>
    match s.signals with
    | roomId :: rest => some (some roomId, { s with signals := rest })
    | [] => if retry.Nonempty then some (none, s) else none
  | .drain rooms, s =>
    if choice.order.Nodup ∧ choice.order.toFinset = rooms then some (choice.order, s) else none
  | .sizesGet, s => some (s.sizes, s)
  | .sizesInsert roomId size, s => some ((), { s with sizes := s.sizes.insert roomId size })
  | .sizesRemove roomId, s => some ((), { s with sizes := s.sizes.erase roomId })
  | .storeDegraded degraded, s => some ((), { s with degraded := degraded })
  | .storeLastError error, s => some ((), { s with lastError := error })

theorem exec_of_tried {choice : MailboxChoice} {op : MailboxOp} {s s' : MailboxState} {r : op.Res}
    (h : tried choice op s = some (r, s')) : exec op s r s' := by
  cases op with
  | files op =>
    obtain ⟨⟨r, fs⟩, hfs, heq⟩ := Option.map_eq_some_iff.1 h
    cases heq
    split at hfs
    · exact ⟨fs, Fs.exec_of_disturbed hfs, rfl⟩
    · exact ⟨fs, Fs.exec_of_undisturbed op s.fs r fs hfs, rfl⟩
  | metadataLen path =>
    rw [tried] at h
    split at h
    · rename_i contents hcontents
      cases h
      refine ⟨rfl, ?_⟩
      rw [hcontents]
      rfl
    · cases h
      rfl
  | select retry =>
    rw [tried] at h
    split at h
    · rename_i roomId rest hsignals
      cases h
      exact ⟨rest, hsignals, rfl⟩
    · split at h
      · rename_i hretry
        cases h
        exact ⟨hretry, rfl⟩
      · cases h
  | drain rooms =>
    rw [tried] at h
    split at h
    · rename_i horder
      cases h
      exact ⟨horder.1, horder.2, rfl⟩
    · cases h
  | dirtyGet | dirtyRemove | indexGet | indexRemove | indexIter | queuedInsert | sizesGet =>
    cases h
    exact ⟨rfl, rfl⟩
  | unixTimeMs | dirtyInsert | dirtyOrInsert | indexInsert | queuedRemove | send | sizesInsert
  | sizesRemove | storeDegraded | storeLastError =>
    cases h
    rfl

end MailboxState

namespace PersistentMailbox

open MailboxState

/-! ## Files -/

theorem path_injective {roomId other : String} (h : path roomId = path other) : roomId = other := by
  have hname : roomId ++ ".json" = other ++ ".json" := congrArg Path.name h
  have hlist := congrArg String.toList hname
  rw [String.toList_append, String.toList_append] at hlist
  exact String.toList_injective (List.append_cancel_right hlist)

theorem tmpPath_ne_path (roomId other : String) : tmpPath roomId ≠ path other := by
  intro h
  have hname : "." ++ roomId ++ ".json.tmp" = other ++ ".json" := congrArg Path.name h
  have hlast := congrArg (fun name => name.toList.reverse.head?) hname
  simp [String.toList_append] at hlast

def encoded (codec : MailboxCodec) (roomId : String) (snapshot : Snapshot) : Bytes :=
  codec.toVecPretty (snapshot.toDisk roomId)

/-! ## The calls -/

/-- The operations of `clip_pending`. -/
def IsClip : MailboxOp → Prop
  | .unixTimeMs | .dirtyInsert .. | .queuedInsert _ | .send _ => True
  | _ => False

theorem clipPending_isClip (roomId recipientFp : String) (clip : PendingClip) :
    AllOps IsClip (clipPending roomId recipientFp clip) := by
  unfold clipPending
  split
  · trivial
  · refine ⟨trivial, fun tsMs => ⟨trivial, fun _ => ⟨trivial, fun fresh => ?_⟩⟩⟩
    change AllOps IsClip (if fresh = true then _ else _)
    split
    · exact ⟨trivial, fun _ => trivial⟩
    · trivial

theorem IsClip.notMem_changes {op : MailboxOp} (h : IsClip op) {part : MailboxPart}
    (hpart : part ∈ [MailboxPart.files, .index, .sizes, .degraded, .taken]) :
    part ∉ op.changes := by
  cases op with
  | unixTimeMs | dirtyInsert _ _ | queuedInsert _ | send _ =>
    cases part <;> simp [MailboxOp.changes] at hpart ⊢
  | _ => cases h

/-! ## The phases of the worker -/

/-- What the sizes of the files would come to with a snapshot in place of the room's own. -/
def prospective (codec : MailboxCodec) (sizes : HashMap String ℕ) (roomId : String)
    (x : Snapshot) : ℕ :=
  sizes.keys.sum (fun key => (sizes.lookup key).getD 0) - (sizes.lookup roomId).getD 0 +
    (encoded codec roomId x).length

end PersistentMailbox

/-- What the worker is doing: nothing with a snapshot, or publishing one that it has taken,
found within the quota, written to the temporary file, renamed, or whose size it has noted.
Then the snapshot is in `index` and the health to be marked, or some access has failed or
the quota was exceeded and the snapshot is to be put back. -/
inductive WorkerPhase where
  | idle
  | holding (roomId : String) (x : Snapshot)
  | checked (roomId : String) (x : Snapshot)
  | written (roomId : String) (x : Snapshot)
  | renamed (roomId : String) (x : Snapshot)
  | sized (roomId : String) (x : Snapshot)
  | indexed
  | failed (roomId : String) (x : Snapshot)
  | degraded (roomId : String) (x : Snapshot)

namespace WorkerPhase

open PersistentMailbox MailboxState

def held : WorkerPhase → Option (String × Snapshot)
  | idle | indexed => none
  | holding roomId x | checked roomId x | written roomId x | renamed roomId x | sized roomId x
  | failed roomId x | degraded roomId x => some (roomId, x)

def taking (roomId : String) : Option Snapshot → WorkerPhase
  | some x => holding roomId x
  | none => idle

def orFailed (phase : WorkerPhase) (roomId : String) (x : Snapshot) :
    Except IoError Unit → WorkerPhase
  | .ok _ => phase
  | .error _ => failed roomId x

def IsRest : MailboxOp → Prop
  | .select _ | .drain _ | .queuedRemove _ | .storeLastError _ => True
  | _ => False

section Flow

variable (codec : MailboxCodec) (options : MailboxOptions)

/-- The accesses of the worker, and what it does after them. -/
inductive Flow : WorkerPhase → (op : MailboxOp) → op.Res → WorkerPhase → Prop where
  | rest {op : MailboxOp} {r : op.Res} (hop : IsRest op) : Flow idle op r idle
  | take {roomId : String} (r : Option Snapshot) :
      Flow idle (.dirtyRemove roomId) r (taking roomId r)
  | check {roomId : String} {x : Snapshot} (sizes : HashMap String ℕ) :
      Flow (holding roomId x) .sizesGet sizes
        (if prospective codec sizes roomId x > options.maxBytes then failed roomId x
        else checked roomId x)
  | create {roomId : String} {x : Snapshot} (r : Except IoError Unit) :
      Flow (checked roomId x) (.files (.create (tmpPath roomId))) r
        (orFailed (checked roomId x) roomId x r)
  | write {roomId : String} {x : Snapshot} (r : Except IoError Unit) :
      Flow (checked roomId x) (.files (.writeAll (tmpPath roomId) (encoded codec roomId x))) r
        (orFailed (written roomId x) roomId x r)
  | sync {roomId : String} {x : Snapshot} (r : Except IoError Unit) :
      Flow (written roomId x) (.files (.syncAll (tmpPath roomId))) r
        (orFailed (written roomId x) roomId x r)
  | rename {roomId : String} {x : Snapshot} (r : Except IoError Unit) :
      Flow (written roomId x) (.files (.rename (tmpPath roomId) (path roomId))) r
        (orFailed (renamed roomId x) roomId x r)
  | syncDir {roomId : String} {x : Snapshot} (r : Except IoError Unit) :
      Flow (renamed roomId x) (.files (.syncDir ())) r (orFailed (renamed roomId x) roomId x r)
  | size {roomId : String} {x : Snapshot} {r : Unit} :
      Flow (renamed roomId x) (.sizesInsert roomId (encoded codec roomId x).length) r
        (sized roomId x)
  | enter {roomId : String} {x : Snapshot} {r : Unit} :
      Flow (sized roomId x) (.indexInsert roomId x) r indexed
  | healthy {r : Unit} : Flow indexed (.storeDegraded false) r idle
  | note {roomId : String} {x : Snapshot} {error : Option String} {r : Unit} :
      Flow (failed roomId x) (.storeLastError error) r (failed roomId x)
  | mark {roomId : String} {x : Snapshot} {r : Unit} :
      Flow (failed roomId x) (.storeDegraded true) r (degraded roomId x)
  | putBack {roomId : String} {x : Snapshot} {r : Unit} :
      Flow (degraded roomId x) (.dirtyOrInsert roomId x) r idle

/-- The worker comes to rest between two snapshots. -/
def Ends {α : Type} (phase : WorkerPhase) (_ : α) : Prop := phase = idle

abbrev Runs {α : Type} (phase : WorkerPhase) (p : MailboxProgram α) : Prop :=
  Traces (Flow codec options) Ends phase p

def Writes (roomId : String) (x : Snapshot) (phase : WorkerPhase) :
    Except IoError ℕ → Prop
  | .error _ => phase = failed roomId x
  | .ok size => phase = renamed roomId x ∧ size = (encoded codec roomId x).length

theorem writeSnapshot_runs (roomId : String) (x : Snapshot) :
    Traces (Flow codec options) (Writes codec roomId x) (holding roomId x)
      (writeSnapshot codec options roomId x) := by
  refine fun sizes => ⟨_, .check sizes, ?_⟩
  change Traces _ _ (if prospective codec sizes roomId x > options.maxBytes then _ else _)
    (if prospective codec sizes roomId x > options.maxBytes then _ else _)
  split
  · exact rfl
  · refine fun r => ⟨_, .create r, ?_⟩
    rcases r with e | u
    · exact rfl
    refine fun r => ⟨_, .write r, ?_⟩
    rcases r with e | u
    · exact rfl
    refine fun r => ⟨_, .sync r, ?_⟩
    rcases r with e | u
    · exact rfl
    refine fun r => ⟨_, .rename r, ?_⟩
    rcases r with e | u
    · exact rfl
    refine fun r => ⟨_, .syncDir r, ?_⟩
    rcases r with e | u
    · exact rfl
    · exact ⟨rfl, rfl⟩

theorem publish_runs (roomId : String) (retry : Finset String) :
    Runs codec options idle (publish codec options roomId retry) := by
  refine fun snapshot => ⟨_, .take snapshot, ?_⟩
  cases snapshot with
  | none => exact rfl
  | some x =>
    refine traces_bind (p := writeSnapshot codec options roomId x) (Writes codec roomId x)
      (writeSnapshot_runs codec options roomId x) ?_
    rintro phase (e | size) hwrites
    · cases hwrites
      exact fun _ => ⟨_, .note, fun _ => ⟨_, .mark, fun _ => ⟨_, .putBack, rfl⟩⟩⟩
    · obtain ⟨rfl, rfl⟩ := hwrites
      exact fun _ => ⟨_, .size, fun _ => ⟨_, .enter, fun _ => ⟨_, .healthy, fun _ =>
        ⟨_, .rest trivial, rfl⟩⟩⟩⟩

theorem publishQueued_runs (retry : Finset String) (roomId : String) :
    Runs codec options idle (publishQueued codec options retry roomId) :=
  fun _ => ⟨_, .rest trivial, publish_runs codec options roomId retry⟩

theorem foldlM_runs (rooms : List String) (retry : Finset String) :
    Runs codec options idle (rooms.foldlM (publishQueued codec options) retry) := by
  induction rooms generalizing retry with
  | nil => exact rfl
  | cons roomId rooms ih =>
    refine traces_bind Ends (publishQueued_runs codec options retry roomId) ?_
    rintro _ retry rfl
    exact ih retry

theorem runWorker_runs (retry : Finset String) :
    Runs codec options idle (runWorker codec options retry) := by
  refine fun signal => ⟨_, .rest trivial, ?_⟩
  cases signal with
  | some roomId => exact publishQueued_runs codec options retry roomId
  | none => exact fun rooms => ⟨_, .rest trivial, foldlM_runs codec options rooms ∅⟩

end Flow

variable {codec : MailboxCodec} {options : MailboxOptions} {phase phase' : WorkerPhase}
  {op : MailboxOp} {r : op.Res} {m m' : MailboxState}

theorem IsRest.notMem_changes (h : IsRest op) {part : MailboxPart}
    (hpart : part ∉ [MailboxPart.queued, .signals]) : part ∉ op.changes := by
  cases op with
  | select _ | drain _ | queuedRemove _ | storeLastError _ =>
    cases part <;> simp [MailboxOp.changes] at hpart ⊢
  | _ => cases h

theorem taken_of_flow (h : m.taken = phase.held) (hflow : Flow codec options phase op r phase')
    (hexec : exec op m r m') : m'.taken = phase'.held := by
  have hsame : .taken ∉ op.changes → m'.taken = phase.held :=
    fun hop => (same_of_exec hexec .taken hop).trans h
  cases hflow with
  | rest hop => exact hsame (hop.notMem_changes (by decide))
  | take r =>
    obtain ⟨-, rfl⟩ := hexec
    cases r <;> rfl
  | enter | putBack =>
    cases hexec
    rfl
  | check sizes =>
    rw [hsame nofun]
    split <;> rfl
  | create r | write r | sync r | rename r | syncDir r =>
    rw [hsame (by simp [MailboxOp.changes])]
    cases r <;> rfl
  | size | healthy | note | mark => exact hsame (by simp [MailboxOp.changes])

/-- The worker takes one snapshot at a time and gives back the one it has taken. -/
def Orderly (held : Option (String × Snapshot)) : MailboxOp → Prop
  | .dirtyRemove _ => held = none
  | .indexInsert roomId x | .dirtyOrInsert roomId x => held = some (roomId, x)
  | _ => True

theorem orderly_of_flow (hflow : Flow codec options phase op r phase') :
    Orderly phase.held op := by
  cases hflow with
  | rest hop => cases op <;> trivial
  | take | enter | putBack => exact rfl
  | _ => trivial

theorem Flow.keepsIndex (hflow : Flow codec options phase op r phase') :
    .index ∈ op.changes → .taken ∈ op.changes := by
  cases hflow with
  | rest hop => exact fun hindex => absurd hindex (hop.notMem_changes (by decide))
  | _ => simp [MailboxOp.changes]

theorem orderly_of_isClip (held : Option (String × Snapshot)) (h : IsClip op) :
    Orderly held op := by
  cases op <;> trivial

variable (codec) in
/-- The temporary file holds the snapshot that is to be published. -/
def Drafted : WorkerPhase → MailboxState → Prop
  | written roomId x, m => m.fs.files (tmpPath roomId) = some (encoded codec roomId x)
  | _, _ => True

theorem drafted_of_flow (h : Drafted codec phase m) (hflow : Flow codec options phase op r phase')
    (hexec : exec op m r m') : Drafted codec phase' m' := by
  cases hflow with
  | check sizes => split <;> trivial
  | take r => cases r <;> trivial
  | create r | rename r | syncDir r => cases r <;> trivial
  | write r =>
    obtain ⟨fs, hfs, rfl⟩ := hexec
    cases r with
    | error e => trivial
    | ok u =>
      cases hfs
      exact Function.update_self _ _ _
  | sync r =>
    obtain ⟨fs, rfl, rfl⟩ := hexec
    cases r with
    | error e => trivial
    | ok u => exact h
  | rest | size | enter | healthy | note | mark | putBack => trivial

theorem Drafted.of_temp (h : Drafted codec phase m)
    (htemp : ∀ roomId, m'.fs.files (tmpPath roomId) = m.fs.files (tmpPath roomId)) :
    Drafted codec phase m' := by
  cases phase with
  | written roomId x => exact (htemp roomId).trans h
  | _ => trivial

end WorkerPhase

end ClipSync
