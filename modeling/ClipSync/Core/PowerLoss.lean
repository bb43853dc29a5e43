import ClipSync.Core.ClearedHistory
import ClipSync.Lib.Volume

/-!
# The receive path under loss of power

A received clip is pending in the session file until it is in the history, so it is in
one of the two files at any time. Whether it still is after a loss of power depends on
the order in which the renamings become durable: the session's `atomic_write` syncs its
directory, the history's does not.

As long as every loss leaves the received clips that are in the history there, or pending
in the session file, every clip that the session file is past is in the history once the
session is open again, unless it has been dropped from it.
-/

namespace ClipSync

open Lib Program FsProgram SessionProgram SessionStore HistoryStore

/-! ## The machine -/

/-- An endpoint on a volume, with the items that have been dropped from its history. -/
structure Machine where
  world : World
  candidates : Path Dir → List (Option Bytes)
  dropped : Set Uuid

namespace Machine

def volume (m : Machine) : Volume Dir := ⟨m.world.fs, m.candidates⟩

def droppedBy (before after : List HistoryItem) : Set Uuid :=
  { id | id ∈ before.map (·.id) ∧ id ∉ after.map (·.id) ∧
    (after = [] ∨ after.length = historyCap) }

def exec (crates : Crates) : (op : SessionOp) → Machine → op.Res → Machine → Prop
  | .fs op, m, r, m' => Volume.access op m.volume r m'.volume ∧
      m'.world = { m.world with fs := m'.world.fs } ∧
      m'.dropped = m.dropped ∪
        droppedBy (listed crates.lines m.world.fs) (listed crates.lines m'.world.fs)
  | op, m, r, m' => SessionOp.exec crates op m.world r m'.world ∧
      m'.candidates = m.candidates ∧ m'.dropped = m.dropped

variable {crates : Crates} {m m' : Machine}

theorem exec_world {op : SessionOp} {r : op.Res} (h : exec crates op m r m') :
    SessionOp.exec crates op m.world r m'.world := by
  cases op with
  | fs op => exact ⟨_, h.1.1, h.2.1⟩
  | newV4 | sealMessage _ _ _ _ | callback _ _ | reached _ _ => exact h.1

/-- Nothing has happened to the files. -/
structure Unmoved (m m' : Machine) : Prop where
  fs : m'.world.fs = m.world.fs
  candidates : m'.candidates = m.candidates
  dropped : m'.dropped = m.dropped

theorem exec_cases {op : SessionOp} {r : op.Res} (h : exec crates op m r m') :
    (∃ fsOp, op = .fs fsOp) ∨ Unmoved m m' := by
  have hfs := fs_of_exec (exec_world h)
  cases op with
  | fs op => exact .inl ⟨op, rfl⟩
  | newV4 | sealMessage _ _ _ _ | callback _ _ | reached _ _ =>
    exact .inr ⟨hfs.resolve_left (by rintro ⟨_, ⟨⟩⟩), h.2.1, h.2.2⟩

theorem safe_world {α : Type} {p : SessionProgram α} {I : World → Prop} {Q : α → World → Prop}
    (hp : Safe (SessionOp.exec crates) I Q p m.world) :
    Safe (exec crates) (fun m => I m.world) (fun a m => Q a m.world) p m :=
  Safe.comap world (fun _ _ _ _ h => exec_world h) hp

theorem safe_volume {α : Type} {p : FsProgram Dir α} {I : Volume Dir → Prop}
    {Q : α → Volume Dir → Prop} (hp : Safe Volume.access I Q p m.volume) :
    Safe (exec crates) (fun m => I m.volume) (fun a m => Q a m.volume) (files p) m :=
  Session.safe_files_of (hp.comap volume fun _ _ _ _ h => h.1)

def Keeps (crates : Crates) (m : Machine) (id : Uuid) : Prop :=
  id ∈ (listed crates.lines m.world.fs).map (·.id) ∨ id ∈ m.dropped

theorem dropped_subset {op : SessionOp} {r : op.Res} (h : exec crates op m r m') :
    m.dropped ⊆ m'.dropped := by
  rcases exec_cases h with ⟨op, rfl⟩ | hunmoved
  · rw [h.2.2]
    exact Set.subset_union_left
  · exact hunmoved.dropped.symm.subset

theorem keeps_exec {op : SessionOp} {r : op.Res} (h : exec crates op m r m') {id : Uuid}
    (hid : id ∈ (listed crates.lines m.world.fs).map (·.id))
    (hlisted : id ∈ (listed crates.lines m'.world.fs).map (·.id) ∨
      listed crates.lines m'.world.fs = [] ∨
      (listed crates.lines m'.world.fs).length = historyCap) :
    Keeps crates m' id := by
  by_cases hstays : id ∈ (listed crates.lines m'.world.fs).map (·.id)
  · exact .inl hstays
  rcases exec_cases h with ⟨op, rfl⟩ | hunmoved
  · rw [Keeps, h.2.2]
    exact .inr (.inr ⟨hid, hstays, hlisted.resolve_left hstays⟩)
  · rw [hunmoved.fs] at hstays
    exact absurd hid hstays

end Machine

/-! ## Candidates of the session file -/

section Candidates

variable {crates : Crates} (pairing : Pairing crates.prim)

def recvIn (contents : Option Bytes) : DirectionState :=
  ofGeneration pairing.identity.generation (directionIn crates contents pairing.recvKey)

theorem stored_eq_recvIn (fs : Fs Dir) :
    stored pairing fs pairing.recvKey = recvIn pairing (fs.files sessionFile) := rfl

def Readable (crates : Crates) (contents : Option Bytes) : Prop :=
  contents = none ∨ ∃ document, contents = some (crates.documents.toVec document)

def Replaces (crates : Crates) (old : Option Bytes) (key : String) (state : DirectionState)
    (contents : Option Bytes) : Prop :=
  ∃ document, contents = some (crates.documents.toVec document) ∧
    document.directions.lookup key = some state ∧
    ∀ other, other ≠ key → document.directions.lookup other = directionIn crates old other

variable {pairing} {old contents : Option Bytes} {key : String} {state : DirectionState}

theorem Replaces.readable (h : Replaces crates old key state contents) :
    Readable crates contents := by
  obtain ⟨document, hcontents, -⟩ := h
  exact .inr ⟨document, hcontents⟩

theorem Replaces.recvIn_this (h : Replaces crates old pairing.recvKey state contents)
    (hgeneration : state.identityGeneration = pairing.identity.generation) :
    recvIn pairing contents = state := by
  obtain ⟨document, rfl, hthis, -⟩ := h
  rw [recvIn, directionIn_toVec, hthis]
  exact if_pos hgeneration

theorem Replaces.recvIn_other (h : Replaces crates old pairing.sendKey state contents) :
    recvIn pairing contents = recvIn pairing old := by
  obtain ⟨document, rfl, -, hothers⟩ := h
  rw [recvIn, directionIn_toVec, hothers _ pairing.sendKey_ne_recvKey.symm, recvIn]

variable {v : Volume Dir}

theorem safe_loadDocument_readable (hv : v.Current sessionFile)
    (hreadable : Readable crates (v.fs.files sessionFile)) :
    Safe Volume.access (Volume.Untouched sessionFile v)
      (fun r _ => ∃ document, r = .ok document ∧
        ∀ key, document.directions.lookup key = directionIn crates (v.fs.files sessionFile) key)
      (loadDocument crates) v := by
  have hstart : Volume.Untouched sessionFile v v := ⟨rfl, fun _ => id, hv⟩
  refine ⟨hstart, fun r v' hread => ?_⟩
  have hsame : Volume.Untouched sessionFile v v' := .of_access hv hread trivial
  obtain ⟨hexec, hsucceeds, -⟩ := hread
  match r, hexec with
  | .ok bytes, ⟨_, hfile⟩ =>
    rw [hfile] at hreadable
    rcases hreadable with hnone | ⟨document, hsome⟩
    · cases hnone
    · cases hsome
      refine ⟨hsame, document, ?_, fun key => ?_⟩
      · rw [crates.documents.fromSlice_toVec]
        rfl
      · rw [hfile, directionIn_toVec]
  | .error .notFound, ⟨_, hfile⟩ =>
    refine ⟨hsame, _, rfl, fun key => ?_⟩
    rw [hfile]
    rfl
  | .error (.other message), _ => exact absurd rfl (hsucceeds message)

theorem safe_commitDirection_synced (hv : v.Current sessionFile) (hsynced : v.Synced sessionFile)
    (hreadable : Readable crates (v.fs.files sessionFile)) (key : String) (state : DirectionState) :
    Safe Volume.access
      (fun v' => ∀ c ∈ v'.candidates sessionFile, c = v.fs.files sessionFile ∨
        Replaces crates (v.fs.files sessionFile) key state c)
      (fun r v' => r = .ok () ∧ v'.Synced sessionFile ∧ v'.Current sessionFile ∧
        Replaces crates (v.fs.files sessionFile) key state (v'.fs.files sessionFile))
      (commitDirection crates key state none) v := by
  have huntouched : ∀ v', Volume.Untouched sessionFile v v' →
      ∀ c ∈ v'.candidates sessionFile, c = v.fs.files sessionFile ∨
        Replaces crates (v.fs.files sessionFile) key state c :=
    fun v' h c hc => .inl (hsynced c (h.candidates hc))
  refine Safe.bind ((safe_loadDocument_readable hv hreadable).mono huntouched
    fun r v' h hr => And.intro h hr) ?_
  rintro _ v₁ - ⟨h₁, document, rfl, hdocument⟩
  refine ⟨huntouched v₁ h₁, fun name v₂ hname => ?_⟩
  have h₂ := h₁.trans (.of_access h₁.current hname trivial)
  have hreplaces : Replaces crates (v.fs.files sessionFile) key state
      (some (crates.documents.toVec ⟨document.directions.insert key state⟩)) := by
    refine ⟨_, rfl, Finmap.lookup_insert _, fun other hother => ?_⟩
    rw [Finmap.lookup_insert_of_ne _ hother, hdocument]
  change Safe _ _ _ (FsProgram.atomicWrite _ _ _ _ >>= _) _
  refine Safe.bind ((Volume.safe_atomicWrite_synced rfl (tempFile_ne name)
    (h₂.synced hsynced)).mono ?_ fun r v' _ h => h) ?_
  · intro v' h c hc
    rcases h c hc with hold | hnew
    · exact .inl (hold.trans h₂.file)
    · exact .inr (hnew ▸ hreplaces)
  · rintro _ v₃ hcandidates ⟨rfl, hsynced₃, hcurrent₃, hfile⟩
    exact ⟨hcandidates, rfl, hsynced₃, hcurrent₃, hfile ▸ hreplaces⟩

end Candidates

/-! ## What survives a loss of power -/

section Survival

variable {crates : Crates} (pairing : Pairing crates.prim) (accepted : Set ClipItem)

/-- The accepted clips that a receive direction is past are in the history, dropped from it
or pending in the direction. -/
def Covered (crates : Crates) (m : Machine) (state : DirectionState) : Prop :=
  ∀ item ∈ accepted, item.seq ≤ state.lastSeq →
    m.Keeps crates item.id ∨ ∃ pending ∈ state.pendingHistory, pending.id = item.id

/-- This is so for all that a loss of power may leave of the session file. -/
structure Survives (m : Machine) : Prop where
  candidates : ∀ contents ∈ m.candidates sessionFile,
    Readable crates contents ∧ Covered accepted crates m (recvIn pairing contents)
  current : m.volume.Current sessionFile

/-- A session with what is on disk, which is durable. -/
structure Session.Saved (m : Machine) (session : Session) : Prop where
  opened : session.Opened pairing
  shown : session.history.items = listed crates.lines m.world.fs
  stored : stored pairing m.world.fs pairing.recvKey = session.recvState
  synced : m.volume.Synced sessionFile
  past : ∀ item ∈ accepted, item.seq ≤ session.recvState.lastSeq

/-- The items of the history that were kept still are, and the session file is the same. -/
structure Follows (crates : Crates) (m m' : Machine) : Prop where
  keeps : ∀ id, m.Keeps crates id → m'.Keeps crates id
  untouched : Volume.Untouched sessionFile m.volume m'.volume

variable {pairing accepted} {m : Machine}

theorem Covered.follows {state : DirectionState} (h : Covered accepted crates m state)
    {m' : Machine} (hkeeps : ∀ id, m.Keeps crates id → m'.Keeps crates id) :
    Covered accepted crates m' state :=
  fun item hitem hseq => (h item hitem hseq).imp_left (hkeeps item.id)

theorem Follows.stored {m' : Machine} (h : Follows crates m m') :
    stored pairing m'.world.fs pairing.recvKey = stored pairing m.world.fs pairing.recvKey :=
  congrArg (recvIn pairing) h.untouched.file

theorem Survives.covered (hm : Survives pairing accepted m) :
    Covered accepted crates m (stored pairing m.world.fs pairing.recvKey) :=
  (hm.candidates _ hm.current).2

theorem Survives.follows (hm : Survives pairing accepted m) {m' : Machine}
    (h : Follows crates m m') : Survives pairing accepted m' := by
  refine ⟨fun contents hcontents => ?_, h.untouched.current⟩
  obtain ⟨hreadable, hcovered⟩ := hm.candidates contents (h.untouched.candidates hcontents)
  exact ⟨hreadable, hcovered.follows h.keeps⟩

theorem Own.leaves_sessionFile {op : FsOp Dir} (h : Own op) : op.Leaves sessionFile := by
  have hdir := h.1
  have hne : ∀ path : Path Dir, path.dir ≠ .session → path ≠ sessionFile := by
    rintro path hpath rfl
    exact hpath rfl
  cases op with
  | createNew path | create path | writeAll path _ | remove path => exact hne path hdir
  | rename source target => exact ⟨hne source hdir.1, hne target hdir.2⟩
  | uniqueName | createDirAll _ | readDir _ | read _ | syncAll _ | syncDir _ => trivial

variable {fresh : Bool} {item : ClipItem} {α : Type} {p : FsProgram Dir α}
  {history : HistoryStore} {failAt : Option ReceiveStage} {self : Session}
  {id : Uuid} {Q : α → Fs Dir → Prop}

variable (pairing accepted) in
/-- The accepted clips survive a program, and this holds when it returns. -/
abbrev Endures {α : Type} (Q : α → Machine → Prop) (p : SessionProgram α) (m : Machine) : Prop :=
  Safe (Machine.exec crates) (Survives pairing accepted) Q p m

theorem safe_changes {next : List HistoryItem} (hm : Survives pairing accepted m)
    (hown : AllOps Own p)
    (hp : Safe Fs.exec (fun s' => listed crates.lines s' = listed crates.lines m.world.fs ∨
      listed crates.lines s' = next) Q p m.world.fs)
    (hnext : next = [] ∨ next.length = historyCap ∨
      ∀ id ∈ (listed crates.lines m.world.fs).map (·.id), id ∈ next.map (·.id)) :
    Endures pairing accepted (fun a m' => Follows crates m m' ∧ Q a m'.world.fs) (files p) m := by
  have huntouched : Safe (Machine.exec crates)
      (fun m' => Volume.Untouched sessionFile m.volume m'.volume)
      (fun _ m' => Volume.Untouched sessionFile m.volume m'.volume) (files p) m :=
    Machine.safe_volume (Volume.safe_untouched (allOps_mono (fun _ => Own.leaves_sessionFile) hown)
      hm.current)
  have hlists : Safe (SessionOp.exec crates)
      (fun w => listed crates.lines w.fs = listed crates.lines m.world.fs ∨
        listed crates.lines w.fs = next) (fun a w => Q a w.fs) (files p) m.world :=
    safe_files hp (fun _ h => h) fun _ _ _ h => h
  have hkeeps := Safe.track (T := fun m' => m.dropped ⊆ m'.dropped ∧
      ∀ id ∈ (listed crates.lines m.world.fs).map (·.id), m'.Keeps crates id)
    (fun op m₁ r m₂ hexec hlist hkept => ?_) (Machine.safe_world hlists)
    ⟨fun _ => id, fun _ hid => .inl hid⟩
  · have hfollows : ∀ m', (Volume.Untouched sessionFile m.volume m'.volume) →
        (m.dropped ⊆ m'.dropped ∧
          ∀ id ∈ (listed crates.lines m.world.fs).map (·.id), m'.Keeps crates id) →
        Follows crates m m' := by
      rintro m' hfile ⟨hdropped, hlisted⟩
      refine ⟨fun id hid => ?_, hfile⟩
      rcases hid with hmem | hmem
      · exact hlisted id hmem
      · exact .inr (hdropped hmem)
    exact (huntouched.inter hkeeps).mono (fun m' h => hm.follows (hfollows m' h.1 h.2.2))
      fun a m' _ h => ⟨hfollows m' h.1 h.2.2, h.2.1⟩
  · have hdropped := Machine.dropped_subset hexec
    refine ⟨hkept.1.trans hdropped, fun id hid => ?_⟩
    rcases hkept.2 id hid with hmem | hmem
    · refine Machine.keeps_exec hexec hmem ?_
      rcases hlist with hsame | hnew
      · exact .inl (hsame ▸ hid)
      · rw [hnew]
        rcases hnext with hempty | hfull | hsub
        · exact .inr (.inl hempty)
        · exact .inr (.inr hfull)
        · exact .inl (hsub id hid)
    · exact .inr (hdropped hmem)

theorem commitDirection_leaves (key : String) (state : DirectionState) :
    AllOps (FsOp.Leaves metadataFile) (commitDirection crates key state none) := by
  have hdir : ∀ path : Path Dir, path.dir = .session → path ≠ metadataFile := by
    rintro path hpath rfl
    cases hpath
  have hload : AllOps (FsOp.Leaves metadataFile) (loadDocument crates) := by
    refine ⟨trivial, fun r => ?_⟩
    rcases r with (_ | _) | _ <;> trivial
  refine allOps_bind hload fun r => ?_
  cases r with
  | error e => trivial
  | ok document =>
    refine ⟨trivial, fun name => ?_⟩
    change AllOps _ (FsProgram.atomicWrite _ _ _ _ >>= _)
    have htemp : tempFile name ≠ metadataFile := hdir _ rfl
    exact allOps_bind (atomicWrite_allOps htemp htemp htemp trivial
      ⟨htemp, hdir sessionFile rfl⟩ trivial htemp) fun _ => trivial

/-- The history is the same. -/
structure SameHistory (crates : Crates) (m m' : Machine) : Prop where
  listed : listed crates.lines m'.world.fs = listed crates.lines m.world.fs
  keeps : ∀ id, m.Keeps crates id → m'.Keeps crates id

/-- A transaction on the session file. -/
theorem safe_transaction {key : String} {state : DirectionState}
    (hm : Survives pairing accepted m) (hsynced : m.volume.Synced sessionFile)
    (hcovered : ∀ contents, Replaces crates (m.world.fs.files sessionFile) key state contents →
      Covered accepted crates m (recvIn pairing contents)) :
    Endures pairing accepted
      (fun r m' => r = .ok () ∧ SameHistory crates m m' ∧ m'.volume.Synced sessionFile ∧
        Replaces crates (m.world.fs.files sessionFile) key state
          (m'.world.fs.files sessionFile))
      (files (commitDirection crates key state none)) m := by
  have hreadable := (hm.candidates _ hm.current).1
  have hvolume := (safe_commitDirection_synced hm.current hsynced hreadable key state).inter
    (Volume.safe_current _ hm.current)
  have hlist : Safe (SessionOp.exec crates)
      (fun w => listed crates.lines w.fs = listed crates.lines m.world.fs)
      (fun _ w => listed crates.lines w.fs = listed crates.lines m.world.fs)
      (files (commitDirection crates key state none)) m.world :=
    safe_files (safe_listed (commitDirection_leaves key state)) (fun _ h => h) fun _ _ _ h => h
  have hdropped := (Machine.safe_world hlist).track (T := fun m' => m.dropped ⊆ m'.dropped)
    (fun _ _ _ _ hexec _ h => h.trans (Machine.dropped_subset hexec)) subset_rfl
  have hsame : ∀ m' : Machine,
      listed crates.lines m'.world.fs = listed crates.lines m.world.fs →
      m.dropped ⊆ m'.dropped → SameHistory crates m m' := by
    intro m' hlisted hsub
    refine ⟨hlisted, fun id hid => ?_⟩
    rcases hid with hmem | hmem
    · exact .inl (hlisted ▸ hmem)
    · exact .inr (hsub hmem)
  refine ((Machine.safe_volume hvolume).inter hdropped).mono ?_ ?_
  · rintro m' ⟨⟨hcandidates, hcurrent⟩, hlisted, hsub⟩
    have hkeeps := (hsame m' hlisted hsub).keeps
    refine ⟨fun contents hcontents => ?_, hcurrent⟩
    rcases hcandidates contents hcontents with hold | hnew
    · rw [hold]
      exact ⟨hreadable, hm.covered.follows hkeeps⟩
    · exact ⟨hnew.readable, (hcovered contents hnew).follows hkeeps⟩
  · rintro r m' - ⟨⟨⟨rfl, hsynced', -, hreplaces⟩, -⟩, hlisted, hsub⟩
    exact ⟨rfl, hsame m' hlisted hsub, hsynced', hreplaces⟩

/-! ## Calls on a machine -/

theorem Session.Saved.wellFormed (h : self.Saved pairing accepted m) :
    WellFormed self.history.items :=
  h.shown ▸ wellFormed_listed _ _

theorem Session.Saved.registerText (h : self.Saved pairing accepted m) (content : ClipContent) :
    (self.registerText crates content).Saved pairing accepted m := by
  obtain ⟨hashes, heq⟩ := self.registerText_eq crates content
  rw [heq]
  exact ⟨{ h.opened with }, h.shown, h.stored, h.synced, h.past⟩

theorem Session.Saved.withHistory (h : self.Saved pairing accepted m) {m' : Machine}
    (hfollows : Follows crates m m')
    (hsettled : HistoryStore.Settled crates.lines m.world.fs self.history m'.world.fs history) :
    { self with history }.Saved pairing accepted m' :=
  ⟨{ h.opened with }, hsettled.shown h.shown, hfollows.stored.trans h.stored,
    hfollows.untouched.synced h.synced, h.past⟩

variable {mailbox : Bool} {request : Call} {content : ClipContent} {s : Fs Dir} {tsMs : Int64}
  {stage : ReceiveStage} {accepted' : Set ClipItem}

open Machine

theorem Machine.Unmoved.volume {m' : Machine} (h : Unmoved m m') : m'.volume = m.volume := by
  rw [Machine.volume, Machine.volume, h.fs, h.candidates]

theorem Machine.Unmoved.keeps {m' : Machine} (h : Unmoved m m') (hid : m.Keeps crates id) :
    m'.Keeps crates id := by
  rw [Machine.Keeps, h.fs, h.dropped]
  exact hid

theorem Machine.Unmoved.survives {m' : Machine} (h : Unmoved m m')
    (hm : Survives pairing accepted m) : Survives pairing accepted m' := by
  refine hm.follows ⟨fun id hid => h.keeps hid, ?_⟩
  · rw [h.volume]
    exact ⟨rfl, fun _ => id, hm.current⟩

theorem Machine.Unmoved.saved {m' : Machine} (h : Unmoved m m')
    (hself : self.Saved pairing accepted m) : self.Saved pairing accepted m' :=
  ⟨hself.opened, h.fs ▸ hself.shown, h.fs ▸ hself.stored, h.volume ▸ hself.synced, hself.past⟩

/-- An access that is not one to a file. -/
theorem safe_unmoved {op : SessionOp} {R : op.Res → Machine → Prop} (hop : ∀ fsOp, op ≠ .fs fsOp)
    (hm : Survives pairing accepted m) (hR : ∀ r m', Unmoved m m' → R r m') :
    Endures pairing accepted R (perform op) m := by
  refine ⟨hm, fun r m' hexec => ?_⟩
  have hunmoved := (Machine.exec_cases hexec).resolve_left fun ⟨fsOp, h⟩ => hop fsOp h
  exact ⟨hunmoved.survives hm, hR r m' hunmoved⟩

theorem safe_setSource_saved (hm : Survives pairing accepted m)
    (hself : self.Saved pairing accepted m) :
    Endures pairing accepted (fun r m' => { self with history := r.2 }.Saved pairing accepted m')
      (files (self.history.setSource crates.lines id .remote)) m := by
  refine (safe_changes hm (setSource_own _ _ _ _)
    (safe_setSource hself.wellFormed id .remote m.world.fs) (.inr (.inr fun id hid => ?_))).imp ?_
  · rw [(promotes_sourcing hself.wellFormed _ .remote).ids, hself.shown]
    exact hid
  · rintro ⟨r, history⟩ m' - ⟨hfollows, hsettled, -⟩
    exact hself.withHistory hfollows hsettled

theorem adding_drops (items : List HistoryItem) (item : NewHistoryItem) :
    adding items item = [] ∨ (adding items item).length = historyCap ∨
      ∀ id ∈ items.map (·.id), id ∈ (adding items item).map (·.id) := by
  unfold adding
  split
  · exact .inr (.inr fun _ => id)
  by_cases hshort : (items ++ [entryOf item]).length ≤ historyCap
  · refine .inr (.inr fun id hid => ?_)
    rw [recent_of_le hshort, List.map_append]
    exact List.mem_append_left _ hid
  · refine .inr (.inl ?_)
    rw [recent, List.length_drop]
    omega

theorem safe_add_follows {item : NewHistoryItem} (hm : Survives pairing accepted m)
    (hshown : history.items = listed crates.lines m.world.fs) :
    Endures pairing accepted (fun r m' => Follows crates m m' ∧
        HistoryStore.Settled crates.lines m.world.fs history m'.world.fs r.2 ∧
        (r.1 = .ok () → m'.Keeps crates item.id))
      (files (history.add crates.lines item)) m := by
  have hwell : WellFormed history.items := hshown ▸ wellFormed_listed _ _
  refine (safe_changes hm (add_own _ _ _) (safe_add hwell item m.world.fs)
    (hshown ▸ adding_drops _ _)).imp ?_
  rintro ⟨r, history'⟩ m' - ⟨hfollows, hsettled, -, hitems⟩
  refine ⟨hfollows, hsettled, fun hok => .inl ?_⟩
  obtain ⟨known, hknown, hid⟩ := exists_mem_adding history.items item
  rw [← hsettled.shown hshown]
  exact List.mem_map.2 ⟨known, hitems hok ▸ hknown, hid⟩

/-- An item that has been added is kept. -/
theorem safe_add_saved {item : NewHistoryItem} (hm : Survives pairing accepted m)
    (hself : self.Saved pairing accepted m) :
    Endures pairing accepted (fun r m' => { self with history := r.2 }.Saved pairing accepted m' ∧
        (r.1 = .ok () → m'.Keeps crates item.id))
      (files (self.history.add crates.lines item)) m :=
  (safe_add_follows hm hself.shown).imp fun _ _ _ h =>
    ⟨hself.withHistory h.1 h.2.1, h.2.2⟩

theorem Covered.cleared {state : DirectionState} (h : Covered accepted crates m state)
    (hid : m.Keeps crates id) : Covered accepted crates m (Session.cleared state id) := by
  intro item hitem hseq
  rcases h item hitem hseq with hkeeps | ⟨pending, hpending, hsame⟩
  · exact .inl hkeeps
  · by_cases hthis : pending.id = id
    · exact .inl (hsame ▸ hthis ▸ hid)
    · exact .inr ⟨pending, by simp [Session.cleared, hpending, hthis], hsame⟩

theorem safe_commitRecv_saved {key : String} (hkey : key = pairing.recvKey)
    {state : DirectionState} (hm : Survives pairing accepted m)
    (hself : self.Saved pairing accepted' m) (hcovered : Covered accepted crates m state)
    (hgeneration : state.identityGeneration = pairing.identity.generation)
    (hpast : ∀ item ∈ accepted, item.seq ≤ state.lastSeq) :
    Endures pairing accepted
      (fun r m' => r = .ok () ∧ { self with recvState := state }.Saved pairing accepted m')
      (files (commitDirection crates key state none)) m := by
  rw [hkey]
  refine (safe_transaction hm hself.synced fun contents hcontents => ?_).imp ?_
  · rw [hcontents.recvIn_this hgeneration]
    exact hcovered
  · rintro r m' - ⟨hok, hsame, hsynced, hreplaces⟩
    refine ⟨hok, { hself.opened with recvGeneration := hgeneration },
      hself.shown.trans hsame.listed.symm, ?_, hsynced, hpast⟩
    rw [stored_eq_recvIn]
    exact hreplaces.recvIn_this hgeneration

theorem Survives.covered_recv (hm : Survives pairing accepted m)
    (hself : self.Saved pairing accepted' m) : Covered accepted crates m self.recvState :=
  hself.stored ▸ hm.covered

theorem receives_saved (item : ClipItem) (fresh : Bool) (failAt : Option ReceiveStage) :
    Session.Receives (.safe (Machine.exec crates) (Survives pairing accepted)) crates item fresh
      failAt (fun stage self m => self.Saved pairing accepted m ∧
        (stage = .historyAdded → m.Keeps crates item.id))
      (fun _ self m => self.Saved pairing accepted m) where
  finish hm h := ⟨hm, h⟩
  mark hm h := safe_unmoved nofun hm fun _ m' hunmoved =>
    ⟨hunmoved.saved h.1, fun hstage => hunmoved.keeps (h.2 hstage)⟩
  fault _ h := h.1
  add hm h := (safe_add_saved hm h.1).imp fun _ _ _ h =>
    .intro (fun hok => ⟨h.1, fun _ => h.2 hok⟩) fun _ => h.1
  clear hm h := by
    have hcleared := (hm.covered_recv h.1).cleared (h.2 rfl)
    refine (safe_commitRecv_saved h.1.opened.recvKey hm h.1 hcleared
      h.1.opened.recvGeneration h.1.past).imp ?_
    rintro _ m' - ⟨rfl, hself⟩
    exact ⟨hself, nofun⟩
  callback hm h := safe_unmoved nofun hm fun r m' hunmoved =>
    have hself := hunmoved.saved h.1
    .intro crates ⟨hself, nofun⟩ hself (fun _ => hself) (hself.registerText _) r
  promote hm h := (safe_setSource_saved hm h.1).imp fun _ _ _ h =>
    .intro (fun _ => ⟨h, nofun⟩) fun _ => h
  applied h := h.1.registerText _

theorem safe_deliverClip_saved (hm : Survives pairing (insert item accepted) m)
    (hself : self.Saved pairing accepted m) :
    Safe (Machine.exec crates) (Survives pairing (insert item accepted))
      (fun r m' => r.2.Saved pairing (insert item accepted) m')
      (self.deliverClip crates item fresh failAt) m := by
  obtain ⟨hstate, hitem⟩ := lastSeq_delivered self.recvState item (Session.sourceOf fresh)
  have hcovered : Covered (insert item accepted) crates m
      (Session.delivered self.recvState item (Session.sourceOf fresh)) := by
    rintro other (rfl | hother) -
    · exact .inr ⟨⟨other.id, other.tsMs, Session.sourceOf fresh, other.content⟩,
        by simp [Session.delivered], rfl⟩
    · rcases hm.covered_recv hself other (.inr hother) (hself.past other hother) with
        hkeeps | ⟨pending, hpending, hid⟩
      · exact .inl hkeeps
      · exact .inr ⟨pending, List.mem_append_left _ hpending, hid⟩
  have hpast : ∀ other ∈ insert item accepted, other.seq ≤
      (Session.delivered self.recvState item (Session.sourceOf fresh)).lastSeq := by
    rintro other (rfl | hother)
    · exact hitem
    · exact UInt64.le_trans (hself.past other hother) hstate
  refine (receives_saved item fresh failAt).deliverClip hm ((safe_commitRecv_saved
    hself.opened.recvKey hm hself hcovered hself.opened.recvGeneration hpast).imp ?_)
  rintro _ m' - ⟨rfl, hself'⟩
  exact ⟨hself', by rintro ⟨⟩⟩

/-- The clip that a call of `handle_clip` accepts. -/
def Session.Accepts (crates : Crates) (self : Session) (roomId ciphertextB64 : String) :
    Set ClipItem :=
  { item | self.authenticate crates roomId ciphertextB64 = some item ∧
    item.id.toText ∉ self.recvState.seenIds ∧ self.recvState.lastSeq < item.seq }

theorem Survives.accept (hm : Survives pairing accepted m) (hself : self.Saved pairing accepted m)
    (roomId ciphertextB64 : String) :
    Survives pairing (accepted ∪ self.Accepts crates roomId ciphertextB64) m := by
  refine ⟨fun contents hcontents => ?_, hm.current⟩
  obtain ⟨hreadable, hcovered⟩ := hm.candidates contents hcontents
  refine ⟨hreadable, ?_⟩
  rintro item (hitem | ⟨-, -, hnew⟩) hseq
  · exact hcovered item hitem hseq
  · have hfile : contents = m.world.fs.files sessionFile := hself.synced contents hcontents
    rw [hfile, ← stored_eq_recvIn, hself.stored] at hseq
    exact absurd hseq (UInt64.not_le.2 hnew)

theorem safe_handleClip_saved {roomId ciphertextB64 : String} {nowMs : Int64}
    (hm : Survives pairing accepted m) (hself : self.Saved pairing accepted m) :
    Safe (Machine.exec crates)
      (Survives pairing (accepted ∪ self.Accepts crates roomId ciphertextB64))
      (fun r m' => r.2.Saved pairing (accepted ∪ self.Accepts crates roomId ciphertextB64) m')
      (self.handleClipWithFault crates roomId ciphertextB64 mailbox nowMs failAt) m := by
  have hm' := hm.accept hself roomId ciphertextB64
  have hrefused : (∀ item, item ∉ self.Accepts crates roomId ciphertextB64) →
      self.Saved pairing (accepted ∪ self.Accepts crates roomId ciphertextB64) m := by
    intro hnone
    rw [Set.eq_empty_of_forall_notMem hnone, Set.union_empty]
    exact hself
  unfold Session.handleClipWithFault
  split
  · rename_i hauthentic
    refine ⟨hm', hrefused fun item hitem => ?_⟩
    cases hauthentic.symm.trans hitem.1
  rename_i item hauthentic
  split
  · rename_i hseen
    refine ⟨hm', hrefused fun other hother => ?_⟩
    cases hauthentic.symm.trans hother.1
    exact hother.2.1 (by simpa using hseen)
  rename_i hseen
  split
  · rename_i hold
    refine ⟨hm', hrefused fun other hother => ?_⟩
    cases hauthentic.symm.trans hother.1
    exact UInt64.not_le.2 hother.2.2 hold
  rename_i hnew
  have haccepts : self.Accepts crates roomId ciphertextB64 = {item} := by
    ext other
    constructor
    · rintro ⟨hother, -⟩
      cases hauthentic.symm.trans hother
      rfl
    · rintro rfl
      exact ⟨hauthentic, by simpa using hseen, UInt64.not_le.1 hnew⟩
  rw [haccepts, Set.union_singleton] at hm' ⊢
  exact safe_deliverClip_saved hm' hself

/-! ## Opening on a machine -/

theorem safe_untouched_saved (hm : Survives pairing accepted m) (hown : AllOps Own p)
    (hp : Safe Fs.exec (fun s' => listed crates.lines s' =
      listed crates.lines m.world.fs) Q p m.world.fs) :
    Endures pairing accepted (fun a m' => Follows crates m m' ∧
        listed crates.lines m'.world.fs = listed crates.lines m.world.fs ∧ Q a m'.world.fs)
      (files p) m :=
  safe_changes (Q := fun a s' => listed crates.lines s' = listed crates.lines m.world.fs ∧ Q a s')
    hm hown (hp.mono (fun _ h => .inl h) fun _ _ h hQ => ⟨h, hQ⟩) (.inr (.inr fun _ => id))

/-- The session file is durable and past all accepted clips. -/
structure Rests (pairing : Pairing crates.prim) (accepted : Set ClipItem) (m : Machine) :
    Prop where
  synced : m.volume.Synced sessionFile
  past : ∀ item ∈ accepted, item.seq ≤ (stored pairing m.world.fs pairing.recvKey).lastSeq

theorem Session.Saved.rests (h : self.Saved pairing accepted m) : Rests pairing accepted m :=
  ⟨h.synced, h.stored ▸ h.past⟩

theorem Rests.follows {m' : Machine} (h : Rests pairing accepted m)
    (hfollows : Follows crates m m') : Rests pairing accepted m' := by
  refine ⟨hfollows.untouched.synced h.synced, ?_⟩
  rw [hfollows.stored]
  exact h.past

def AllKept (crates : Crates) (accepted : Set ClipItem) (m : Machine) : Prop :=
  ∀ item ∈ accepted, m.Keeps crates item.id

/-- What opening a session leaves. -/
structure Reopens (pairing : Pairing crates.prim) (accepted : Set ClipItem)
    (r : Except SessionError Session) (m : Machine) : Prop where
  rests : Rests pairing accepted m
  saved : ∀ session, r = .ok session → session.Saved pairing accepted m
  kept : r.isOk = true → AllKept crates accepted m

theorem reopens_error (h : Rests pairing accepted m) (error : SessionError) :
    Reopens pairing accepted (.error error) m :=
  ⟨h, nofun, nofun⟩

/-- What a session starts from, once the rest of the pending entries is in the history. -/
structure Resumes (pairing : Pairing crates.prim) (accepted : Set ClipItem)
    (sendState recvState : DirectionState) (history : HistoryStore) (rest : List PendingItem)
    (m : Machine) : Prop where
  rests : Rests pairing accepted m
  shown : history.items = listed crates.lines m.world.fs
  generation : sendState.identityGeneration = pairing.identity.generation
  stored : stored pairing m.world.fs pairing.recvKey = recvState
  kept : ∀ item ∈ accepted, m.Keeps crates item.id ∨ ∃ pending ∈ rest, pending.id = item.id

variable {sendState recvState : DirectionState}

theorem Resumes.allKept (h : Resumes pairing accepted sendState recvState history [] m) :
    AllKept crates accepted m := by
  intro item hitem
  rcases h.kept item hitem with hkeeps | ⟨pending, hpending, -⟩
  · exact hkeeps
  · cases hpending

theorem Resumes.reopens (h : Resumes pairing accepted sendState recvState history [] m)
    {keys : SessionKeys}
    (hkeys : pairing.identity.sessionKeys crates.prim pairing.record.peerBundle = .ok keys) :
    Reopens pairing accepted (.ok (Session.opened pairing.record keys sendState recvState history))
      m := by
  refine ⟨h.rests, ?_, fun _ => h.allKept⟩
  rintro _ ⟨⟩
  refine ⟨⟨rfl, rfl, rfl, hkeys, rfl, rfl, h.generation, ?_⟩, h.shown, h.stored, h.rests.synced,
    h.stored ▸ h.rests.past⟩
  change recvState.identityGeneration = _
  rw [← h.stored]
  exact generation_stored pairing _ _

theorem safe_resume_add {pending : PendingItem} {rest : List PendingItem}
    (hm : Survives pairing accepted m)
    (h : Resumes pairing accepted sendState recvState history (pending :: rest) m) :
    Endures pairing accepted
      (fun r m' => After (Resumes pairing accepted sendState recvState r.2 rest m')
        (fun error => Reopens pairing accepted (.error (.history error)) m') r.1)
      (files (history.add crates.lines pending.newHistoryItem)) m := by
  refine (safe_add_follows hm h.shown).imp ?_
  rintro ⟨r, history'⟩ m' - ⟨hfollows, hsettled, hkeeps⟩
  have hrests := h.rests.follows hfollows
  refine .intro (fun hok => ⟨hrests, hsettled.shown h.shown, h.generation,
    hfollows.stored.trans h.stored, fun item hitem => ?_⟩) fun _ => reopens_error hrests _
  rcases h.kept item hitem with hold | ⟨other, hother, hid⟩
  · exact .inl (hfollows.keeps _ hold)
  · rcases List.mem_cons.1 hother with rfl | hrest
    · exact .inl (hid ▸ hkeeps hok)
    · exact .inr ⟨other, hrest, hid⟩

theorem safe_resume_clear {keys : SessionKeys} (hm : Survives pairing accepted m)
    (hkeys : pairing.identity.sessionKeys crates.prim pairing.record.peerBundle = .ok keys)
    (h : Resumes pairing accepted sendState recvState history [] m) :
    Endures pairing accepted
      (fun r m' => After (Reopens pairing accepted
        (.ok (Session.opened pairing.record keys sendState
          { recvState with pendingHistory := [] } history)) m')
        (fun error => Reopens pairing accepted (.error error) m') r)
      (files (commitDirection crates pairing.recvKey
        { recvState with pendingHistory := [] } none)) m := by
  have hgeneration : recvState.identityGeneration = pairing.identity.generation :=
    h.stored ▸ generation_stored pairing _ _
  have hcovered : Covered accepted crates m { recvState with pendingHistory := [] } :=
    fun item hitem _ => .inl (h.allKept item hitem)
  have hreplaced : ∀ contents, Replaces crates (m.world.fs.files sessionFile) pairing.recvKey
      { recvState with pendingHistory := [] } contents →
      recvIn pairing contents = { recvState with pendingHistory := [] } :=
    fun contents hcontents => hcontents.recvIn_this hgeneration
  refine (safe_transaction hm h.rests.synced fun contents hcontents =>
    hreplaced contents hcontents ▸ hcovered).imp ?_
  rintro _ m' - ⟨rfl, hsame, hsynced, hreplaces⟩
  have hstored : ClipSync.stored pairing m'.world.fs pairing.recvKey =
      { recvState with pendingHistory := [] } := hreplaced _ hreplaces
  have hrests : Rests pairing accepted m' := by
    refine ⟨hsynced, ?_⟩
    rw [hstored]
    exact h.stored ▸ h.rests.past
  exact Resumes.reopens ⟨hrests, h.shown.trans hsame.listed.symm, h.generation, hstored,
    fun item hitem => .inl (hsame.keeps _ (h.allKept item hitem))⟩ hkeys

/-- A program that changes no file. -/
theorem safe_reads (hm : Survives pairing accepted m) (hrests : Rests pairing accepted m)
    (hown : AllOps Own p) (hp : Safe Fs.exec (· = m.world.fs) Q p m.world.fs) :
    Endures pairing accepted
      (fun a m' => Rests pairing accepted m' ∧ m'.world.fs = m.world.fs ∧ Q a m'.world.fs)
      (files p) m := by
  have hreads := safe_untouched_saved hm hown
    (hp.mono (fun _ h => congrArg (listed crates.lines) h) fun _ _ h hQ => And.intro h hQ)
  exact hreads.imp fun _ _ _ h => ⟨hrests.follows h.1, h.2.2⟩

theorem loadDirection_own (key : String) (generation : UInt64) :
    AllOps Own (loadDirection crates key generation) := by
  have hload : AllOps Own (loadDocument crates) := by
    refine ⟨⟨trivial, trivial⟩, fun r => ?_⟩
    rcases r with (_ | _) | _ <;> trivial
  refine allOps_bind hload fun r => ?_
  cases r <;> trivial

theorem opens_saved (pairing : Pairing crates.prim) (accepted : Set ClipItem) :
    Session.Opens (Session.onFiles (.safe (Machine.exec crates) (Survives pairing accepted))) crates
      pairing.identity pairing.record (Rests pairing accepted)
      (fun history m => Rests pairing accepted m ∧
        history.items = listed crates.lines m.world.fs)
      (fun history sendState m => (Rests pairing accepted m ∧
        history.items = listed crates.lines m.world.fs) ∧
        sendState.identityGeneration = pairing.identity.generation)
      (Resumes pairing accepted) (Reopens pairing accepted) where
  finish hm h := ⟨hm, h⟩
  create {m} hm h := by
    have hcreate : Safe Fs.exec (· = m.world.fs) (fun _ _ => True) SessionStore.new m.world.fs := by
      refine ⟨rfl, ?_⟩
      rintro r _ rfl
      exact ⟨rfl, trivial⟩
    have hown : AllOps Own SessionStore.new := ⟨⟨trivial, trivial⟩, fun _ => trivial⟩
    exact (safe_reads hm h hown hcreate).imp fun _ _ _ h =>
      .intro (fun _ => h.1) (reopens_error h.1)
  list {m} hm h := by
    refine (safe_untouched_saved hm (new_own _) (safe_open m.world.fs)).imp ?_
    rintro r m' - ⟨hfollows, hlisted, hstore⟩
    have hrests := h.follows hfollows
    cases r with
    | error e => exact reopens_error hrests _
    | ok history => exact ⟨hrests, (hstore history rfl).trans hlisted.symm⟩
  refuse error h := reopens_error h.1 error
  loadSend {_ m} hm h := by
    refine (safe_reads hm h.1 (loadDirection_own _ _) (safe_loadDirection _ _ m.world.fs)).imp ?_
    rintro r m' - ⟨hrests, hfs, hsend⟩
    cases r with
    | error e => exact reopens_error hrests _
    | ok sendState =>
      cases hsend sendState rfl
      exact ⟨⟨hrests, hfs ▸ h.2⟩, generation_stored pairing _ _⟩
  loadRecv {_ _ m} hm h := by
    refine (safe_reads hm h.1.1 (loadDirection_own _ _) (safe_loadDirection _ _ m.world.fs)).imp ?_
    rintro r m' hm' ⟨hrests, hfs, hrecv⟩
    cases r with
    | error e => exact reopens_error hrests _
    | ok recvState =>
      have hstored : ClipSync.stored pairing m'.world.fs pairing.recvKey = recvState :=
        hfs ▸ (hrecv recvState rfl).symm
      refine ⟨hrests, hfs ▸ h.1.2, h.2, hstored, fun item hitem => ?_⟩
      exact hstored ▸ hm'.covered item hitem (hrests.past item hitem)
  add hm h := safe_resume_add hm h
  clear hm hkeys h := safe_resume_clear hm hkeys h
  keep hkeys _ h := h.reopens hkeys

theorem safe_openSession_saved (hm : Survives pairing accepted m)
    (hrests : Rests pairing accepted m) :
    Endures pairing accepted (Reopens pairing accepted)
      (files (Session.openSession crates pairing.identity pairing.record)) m :=
  (opens_saved pairing accepted).openSession hm hrests

/-! ## The other calls on a machine -/

theorem safe_commitSend_saved {key : String} (hkey : key = pairing.sendKey)
    {state : DirectionState} (hm : Survives pairing accepted m)
    (hself : self.Saved pairing accepted m) :
    Endures pairing accepted (fun _ m' => self.Saved pairing accepted m')
      (files (commitDirection crates key state none)) m := by
  rw [hkey]
  refine (safe_transaction hm hself.synced fun contents hcontents => ?_).imp ?_
  · rw [hcontents.recvIn_other, ← stored_eq_recvIn]
    exact hm.covered
  · rintro r m' - ⟨-, hsame, hsynced, hreplaces⟩
    refine ⟨hself.opened, hself.shown.trans hsame.listed.symm, ?_, hsynced, hself.past⟩
    rw [stored_eq_recvIn, hreplaces.recvIn_other, ← stored_eq_recvIn]
    exact hself.stored

theorem Session.Saved.reserved (h : self.Saved pairing accepted m) :
    self.reserved.Saved pairing accepted m :=
  ⟨{ h.opened with }, h.shown, h.stored, h.synced, h.past⟩

theorem safe_sendClip_saved {failAt : Option SendStage} (hm : Survives pairing accepted m)
    (hself : self.Saved pairing accepted m) :
    Endures pairing accepted (fun r m' => r.2.Saved pairing accepted m')
      (self.sendClipWithFault crates content tsMs failAt) m := by
  have hsends : Session.Sends (.safe (Machine.exec crates) (Survives pairing accepted)) crates self
      content tsMs (self.Saved pairing accepted) (self.reserved.Saved pairing accepted)
      (fun _ _ => self.reserved.Saved pairing accepted)
      (fun _ self' => self'.Saved pairing accepted) :=
    { finish := fun hm h => ⟨hm, h⟩
      reject := fun h _ => h
      reserve := fun hm h _ _ => (safe_commitSend_saved h.opened.sendKey hm h).imp
        fun _ _ _ h => .intro (fun _ => h.reserved) fun _ => h
      refuse := fun _ h => h
      draw := fun hm h => safe_unmoved nofun hm fun _ _ hunmoved => hunmoved.saved h
      encrypt := fun hm h _ => safe_unmoved nofun hm fun r _ hunmoved => by
        cases r <;> exact hunmoved.saved h
      add := fun hm h => (safe_add_saved hm h).imp fun _ _ _ h =>
        .intro (fun _ => h.1.registerText content) fun _ => h.1 }
  exact hsends.sendClip failAt hm hself

theorem safe_applyDeferred_saved (hm : Survives pairing accepted m)
    (hself : self.Saved pairing accepted m) :
    Endures pairing accepted
      (fun r m' => r.2.Saved pairing accepted m') (self.applyDeferred crates id) m := by
  refine Safe.bind (safe_setSource_saved hm hself) ?_
  rintro ⟨r, history⟩ m₁ hm₁ hself₁
  cases r with
  | error e => exact ⟨hm₁, hself₁⟩
  | ok u =>
  dsimp only
  split
  · exact ⟨hm₁, hself₁.registerText (.text _)⟩
  · exact ⟨hm₁, hself₁⟩

theorem safe_clearHistory_saved (hm : Survives pairing accepted m)
    (hself : self.Saved pairing accepted m) :
    Endures pairing accepted
      (fun r m' => r.2.Saved pairing accepted m') (self.clearHistory crates) m := by
  refine Safe.bind (safe_changes hm (clear_own _ _) (safe_clear self.history m.world.fs)
    (.inl rfl)) ?_
  rintro ⟨r, history⟩ m₁ hm₁ ⟨hfollows, hsettled, -⟩
  exact ⟨hm₁, hself.withHistory hfollows hsettled⟩

/-! ## Runs with losses of power -/

variable (pairing)

def Call.accepts (crates : Crates) : Call → Option Session → Set ClipItem
  | .handle roomId ciphertextB64 _ _ _, some self => self.Accepts crates roomId ciphertextB64
  | _, _ => ∅

/-- What is left of a machine that loses power. -/
def Machine.lost (m : Machine) (v : Volume Dir) : Machine :=
  ⟨{ m.world with fs := v.fs }, v.candidates, m.dropped⟩

/-- A machine, with the clips that have been accepted. -/
abbrev PoweredEndpoint := Client SessionOp SessionOp.Res Call (Option Session) (Option Frame)
  Machine (Set ClipItem)

def PoweredEndpoint.initial : PoweredEndpoint :=
  ⟨⟨⟨⟨fun _ => none, fun _ => []⟩, [], [], []⟩, fun _ => [none], ∅⟩, none, none, ∅⟩

/-- A machine that loses power in the given states only. Of the accepted clips, those above
the last sequence number that is left have not been received after all. -/
def poweredService (may : Machine → Set ClipItem → Prop) : Service SessionOp SessionOp.Res Call
    (Option Session) (Option Frame) Machine (Set ClipItem) where
  program := Call.program pairing
  exec := Machine.exec crates
  begins request session _ accepted := accepted ∪ request.accepts crates session
  returns _ accepted := accepted
  cut σ m session accepted := may σ.state σ.record ∧ session = none ∧
    ∃ v, σ.state.volume.Loses v ∧ m = σ.state.lost v ∧ accepted = { item ∈ σ.record |
      item.seq ≤ (stored pairing v.fs pairing.recvKey).lastSeq }

/-- Whatever a loss leaves of the two files, an accepted clip that is in the history still is,
or is pending. -/
def HistoryDurable (m : Machine) (accepted : Set ClipItem) : Prop :=
  ∀ item ∈ accepted, item.id ∈ (listed crates.lines m.world.fs).map (·.id) →
    ∀ contents ∈ m.candidates metadataFile, ∀ document ∈ m.candidates sessionFile,
      item.id ∈ (listed crates.lines (m.world.fs.set metadataFile contents)).map (·.id) ∨
        ∃ pending ∈ (recvIn pairing document).pendingHistory, pending.id = item.id

/-- What holds when a call returns. -/
structure Call.Completes (request : Call) (accepted : Set ClipItem)
    (result : Option Frame × Option Session) (m : Machine) : Prop where
  rests : Rests pairing accepted m
  saved : ∀ self ∈ result.2, self.Saved pairing accepted m
  kept : request = .reopen → result.2.isSome = true → AllKept crates accepted m

def PoweredEndpoint.Idle (session : Option Session) (m : Machine) (accepted : Set ClipItem) :
    Prop :=
  Survives pairing accepted m ∧ Rests pairing accepted m ∧
    ∀ self ∈ session, self.Saved pairing accepted m

variable {pairing}

theorem completes_of_saved {β : Type} {p : SessionProgram (β × Session)} (frame : β → Option Frame)
    (hrequest : request ≠ .reopen)
    (hp : Endures pairing accepted (fun r m' => r.2.Saved pairing accepted m') p m) :
    Endures pairing accepted (request.Completes pairing accepted)
      (p >>= fun r => pure (frame r.1, some r.2)) m := by
  refine hp.bind fun r m' hm' hself' => ⟨hm', hself'.rests, ?_, fun h => absurd h hrequest⟩
  rintro _ ⟨⟩
  exact hself'

theorem safe_program_saved {session : Option Session}
    {program : SessionProgram (Option Frame × Option Session)}
    (hcall : request.program pairing session = some program) (hm : Survives pairing accepted m)
    (hrests : Rests pairing accepted m)
    (hsession : ∀ self ∈ session, self.Saved pairing accepted m) :
    Safe (Machine.exec crates)
      (Survives pairing (accepted ∪ request.accepts crates session))
      (request.Completes pairing (accepted ∪ request.accepts crates session)) program m := by
  match request, session, hcall with
  | .reopen, none, rfl =>
    simp only [Call.accepts, Set.union_empty]
    refine Safe.bind (safe_openSession_saved hm hrests) ?_
    intro r m' hm' hreopens
    cases r with
    | error e => exact ⟨hm', hreopens.rests, nofun, nofun⟩
    | ok self =>
      refine ⟨hm', hreopens.rests, ?_, fun _ _ => hreopens.kept rfl⟩
      rintro _ ⟨⟩
      exact hreopens.saved _ rfl
  | .send content tsMs failAt, some self, rfl =>
    simp only [Call.accepts, Set.union_empty]
    exact completes_of_saved _ nofun (safe_sendClip_saved hm (hsession self rfl))
  | .handle roomId ciphertextB64 mailbox nowMs failAt, some self, rfl =>
    exact completes_of_saved (fun _ => none) nofun (safe_handleClip_saved hm (hsession self rfl))
  | .applyDeferred id, some self, rfl =>
    simp only [Call.accepts, Set.union_empty]
    exact completes_of_saved (fun _ => none) nofun (safe_applyDeferred_saved hm (hsession self rfl))
  | .clearHistory, some self, rfl =>
    simp only [Call.accepts, Set.union_empty]
    exact completes_of_saved (fun _ => none) nofun (safe_clearHistory_saved hm (hsession self rfl))

/-- A loss of power leaves a session file that covers what it is past. -/
theorem Survives.lose (hm : Survives pairing accepted m) (hmay : HistoryDurable pairing m accepted)
    {v : Volume Dir} (hloses : m.volume.Loses v) :
    Survives pairing { item ∈ accepted |
      item.seq ≤ (stored pairing v.fs pairing.recvKey).lastSeq } (m.lost v) := by
  have hlisted : listed crates.lines (m.lost v).world.fs =
      listed crates.lines (m.world.fs.set metadataFile (v.fs.files metadataFile)) :=
    listed_congr _ (by simp [Machine.lost, Fs.set])
  refine ⟨fun contents hcontents => ?_, ?_⟩
  · have hfile : contents = v.fs.files sessionFile := hloses.synced hcontents
    subst hfile
    obtain ⟨hreadable, hcovered⟩ := hm.candidates _ (hloses.1 sessionFile)
    refine ⟨hreadable, fun item hitem hseq => ?_⟩
    rcases hcovered item hitem.1 hseq with (hkept | hdropped) | hpending
    · rw [Machine.Keeps, hlisted]
      exact (hmay item hitem.1 hkept _ (hloses.1 metadataFile) _ (hloses.1 sessionFile)).imp_left
        .inl
    · exact .inl (.inr hdropped)
    · exact .inr hpending
  · change v.fs.files sessionFile ∈ v.candidates sessionFile
    rw [hloses.2.2]
    exact List.mem_singleton_self _

theorem PoweredEndpoint.keeps : (poweredService pairing (HistoryDurable pairing)).Keeps
    (PoweredEndpoint.Idle pairing) (fun _ _ accepted => Survives pairing accepted)
    fun request _ accepted => request.Completes pairing accepted where
  call hcall h := safe_program_saved hcall h.1 h.2.1 h.2.2
  finish hm h := ⟨hm, h.rests, h.saved⟩
  cutIdle hcut h := by
    obtain ⟨hmay, rfl, v, hloses, rfl, rfl⟩ := hcut
    exact ⟨h.1.lose hmay hloses, ⟨fun _ hmem => hloses.synced hmem, fun _ h => h.2⟩, nofun⟩
  cutBusy hcut h := by
    obtain ⟨hmay, rfl, v, hloses, rfl, rfl⟩ := hcut
    exact ⟨h.lose hmay hloses, ⟨fun _ hmem => hloses.synced hmem, fun _ h => h.2⟩, nofun⟩

theorem PoweredEndpoint.idle_initial : PoweredEndpoint.Idle pairing none
    PoweredEndpoint.initial.state ∅ :=
  ⟨⟨fun _ hcontents => ⟨.inl (List.mem_singleton.1 hcontents), nofun⟩, List.mem_singleton_self _⟩,
    ⟨fun _ hcontents => List.mem_singleton.1 hcontents, nofun⟩, nofun⟩

/-- Where the accepted clips are durable when the power is lost, all of them that the session
file is past are in the history of the session that is opened again, or have been dropped
from it. -/
theorem reopened_history_complete {σ : PoweredEndpoint} (hrun : PoweredEndpoint.initial.Reaches
      (poweredService pairing (HistoryDurable pairing)) σ) {frame : Option Frame}
    {session : Session} (hrunning : σ.running = some (.reopen, .done (frame, some session)))
    {item : ClipItem} (hitem : item ∈ σ.record) :
    item.id ∈ session.history.items.map (·.id) ∨ item.id ∈ σ.state.dropped := by
  have hconsistent := hrun.consistent PoweredEndpoint.keeps PoweredEndpoint.idle_initial
  rw [Client.Consistent, hrunning] at hconsistent
  rw [(hconsistent.2.saved session rfl).shown]
  exact hconsistent.2.kept rfl rfl item hitem

/-! ## A sample loss -/

/-- A machine that has dropped nothing. All but the held files have been written back, and
those may still be gone after a loss. -/
structure Machine.Holds (held : Path Dir → Bool) (m : Machine) : Prop where
  written : ∀ path, held path = false → m.candidates path = [m.world.fs.files path]
  unsynced : ∀ path, held path = true → none ∈ m.candidates path
  dropped : m.dropped = ∅

namespace Machine.Holds

variable {held : Path Dir → Bool} (hheld : ∀ path, held path = true → path = metadataFile)

include hheld

theorem access {op : FsOp Dir} {r : op.Res} {fs' : Fs Dir} (hm : m.Holds held)
    (hop : Quiet crates op m.world.fs r fs') :
    ∃ m', Machine.exec crates (.fs op) m r m' ∧ m'.world = { m.world with fs := fs' } ∧
      m'.Holds held := by
  let candidates : Path Dir → List (Option Bytes) := fun path =>
    if held path = true then
      if fs'.files path = m.world.fs.files path then m.candidates path
      else m.candidates path ++ [fs'.files path]
    else [fs'.files path]
  obtain ⟨hexec, hsync, hstays⟩ := hop
  refine ⟨⟨{ m.world with fs := fs' }, candidates, ∅⟩, ⟨⟨hexec.1, hexec.2, fun path => ?_⟩, rfl,
    ?_⟩, rfl, fun path hpath => ?_, fun path hpath => ?_, rfl⟩
  · by_cases hpath : held path = true
    · exact .inr ⟨hheld path hpath ▸ hsync, if_pos hpath⟩
    · exact .inl (if_neg hpath)
  · rw [hm.dropped, Set.empty_union, eq_comm]
    refine Set.eq_empty_of_forall_notMem fun id hid => hid.2.1 ?_
    obtain ⟨item, hitem, hsame⟩ := List.mem_map.1 hid.1
    exact List.mem_map.2 ⟨item, hstays item hitem, hsame⟩
  · simp [candidates, hpath]
  · have hmem := hm.unsynced path hpath
    simp only [candidates, hpath, if_true]
    split
    · exact hmem
    · exact List.mem_append_left _ hmem

/-- A quiet execution is one of the machine. -/
theorem exec {p : SessionProgram α} {a : α} {w' : World} (hm : m.Holds held)
    (h : Exec (SessionOp.quiet crates) p m.world a w') :
    ∃ m', Exec (Machine.exec crates) p m a m' ∧ m'.world = w' ∧ m'.Holds held := by
  induction p generalizing m with
  | done b =>
    obtain ⟨rfl, rfl⟩ := exec_done.1 h
    exact ⟨m, .done _ _, rfl, hm⟩
  | call op k ih =>
    obtain ⟨r, w₁, hop, hrest⟩ := exec_call.1 h
    suffices hstep : ∃ m₁, Machine.exec crates op m r m₁ ∧ m₁.world = w₁ ∧ m₁.Holds held by
      obtain ⟨m₁, hexec, rfl, hm₁⟩ := hstep
      obtain ⟨m₂, hk, hworld, hm₂⟩ := ih r hm₁ hrest
      exact ⟨m₂, .call hexec hk, hworld, hm₂⟩
    cases op with
    | fs op =>
      obtain ⟨fs', hquiet, rfl⟩ := hop
      exact hm.access hheld hquiet
    | newV4 | sealMessage _ _ _ _ | callback _ _ | reached _ _ =>
      have hexec : SessionOp.exec crates _ m.world r w₁ := hop
      have hfs := (fs_of_exec hexec).resolve_left (by rintro ⟨_, ⟨⟩⟩)
      exact ⟨{ m with world := w₁ }, ⟨hexec, rfl, rfl⟩, rfl, hfs ▸ hm.written, hm.unsynced,
        hm.dropped⟩

end Machine.Holds

theorem Machine.Holds.loses {held : Path Dir → Bool} (hm : m.Holds held) :
    m.volume.Loses ⟨⟨fun path => if held path = true then none else m.world.fs.files path,
        m.world.fs.versions⟩,
      fun path => [if held path = true then none else m.world.fs.files path]⟩ := by
  refine ⟨fun path => ?_, rfl, fun _ => rfl⟩
  change (if held path = true then none else m.world.fs.files path) ∈ m.candidates path
  split
  · exact hm.unsynced path ‹_›
  · rw [hm.written path (Bool.eq_false_iff.2 ‹_›)]
    exact List.mem_singleton_self _

variable {may : Machine → Set ClipItem → Prop}

/-- A session with the history that is left of its own. -/
theorem current_withListed {s' : Fs Dir} (h : self.Current pairing s)
    (hkept : ∀ path, path ≠ metadataFile → s'.files path = s.files path) :
    { self with history := ⟨listed crates.lines s'⟩ }.Current pairing s' := by
  have hdisk : onDisk crates s' = onDisk crates s := onDisk_congr (hkept sessionFile (by rintro ⟨⟩))
  have hstored : ∀ key, stored pairing s' key = stored pairing s key := by
    intro key
    rw [stored, hdisk, stored]
  refine ⟨⟨{ h.opened with }, ⟨?_, fun name => ?_, fun path hpath => ?_⟩, (hstored _).trans h.send,
    wellFormed_listed _ _⟩, (hstored _).trans h.recv, rfl⟩
  · rw [hkept sessionFile (by rintro ⟨⟩)]
    exact h.files.document
  · rw [hkept (tempFile name) (by rintro ⟨⟩)]
    exact h.files.temp name
  · rw [hkept path (by rintro rfl; cases hpath)]
    exact h.files.images path hpath

theorem exists_reopened_sample {held : Path Dir → Bool}
    (hheld : ∀ path, held path = true → path = metadataFile)
    (hmay : ∀ m accepted, m.Holds held → may m accepted) :
    ∃ σ frame session item,
      PoweredEndpoint.initial.Reaches (poweredService Pairing.sample may) σ ∧
      σ.running = some (.reopen, .done (frame, some session)) ∧ item ∈ σ.record ∧
      σ.state.dropped = ∅ ∧ (held metadataFile = true → session.history.items = []) := by
  let m : Machine := PoweredEndpoint.initial.state
  have hm : m.Holds held := ⟨fun _ _ => rfl, fun _ _ => List.mem_singleton_self _, rfl⟩
  obtain ⟨keys, hself⟩ := exists_session_sample .sample
  have h := hself m.world.fs fun _ => rfl
  obtain ⟨ciphertextB64, htakes⟩ := exists_taken_sample (.sample .sample keys) 1 1 (by decide) nofun
    (by decide : (0 : UInt64) < 1) nofun (by decide : 0 < historyCap)
  obtain ⟨fs₂, hhandle, h₂⟩ := Session.Current.handleClip (w := m.world) h htakes
  obtain ⟨m₁, hopen₁, hworld₁, hm₁⟩ := hm.exec hheld (exec_quietFiles (h.reopen rfl))
  obtain ⟨m₂, hhandle₂, hworld₂, hm₂⟩ := hm₁.exec hheld (by rw [hworld₁]; exact hhandle)
  -- the loss, and what is left
  let fs₃ : Fs Dir := ⟨fun path => if held path = true then none else m₂.world.fs.files path,
    m₂.world.fs.versions⟩
  have hkept : ∀ path, path ≠ metadataFile → fs₃.files path = fs₂.files path := by
    intro path hpath
    simp only [fs₃, hworld₂]
    exact if_neg fun h => hpath (hheld path h)
  have h₃ := current_withListed h₂ hkept
  have hm₃ : (m₂.lost ⟨fs₃, fun path => [fs₃.files path]⟩).Holds fun _ => false :=
    ⟨fun _ _ => rfl, by rintro _ ⟨⟩, hm₂.dropped⟩
  obtain ⟨m₄, hreopen, -, hm₄⟩ := hm₃.exec (by simp) (exec_quietFiles (h₃.reopen (by simp; decide)))
  have hopened : PoweredEndpoint.initial.Reaches (poweredService Pairing.sample may) _ :=
    Client.reaches_call (c := .reopen) rfl rfl (hopen₁.bind (.done _ _))
  have hreceived := hopened.trans (Client.reaches_call (c := .handle _ ciphertextB64 false 0 none)
    rfl rfl (hhandle₂.bind (.done _ _)))
  have hrun := (hreceived.tail (.cut ⟨hmay _ _ hm₂, rfl, _, hm₂.loses, rfl, rfl⟩)).trans
    (Client.reaches_return (c := .reopen) rfl rfl (hreopen.bind (.done _ _)))
  refine ⟨_, none, _, sampleText 1 1, hrun, rfl,
    .inl ⟨.inr ⟨htakes.authentic, htakes.unseen, htakes.later⟩, ?_⟩, hm₄.dropped, fun hmeta => ?_⟩
  · rw [show stored Pairing.sample fs₃ Pairing.sample.recvKey = _ from h₃.recv]
    simp
    decide
  · have hgone : fs₃.files metadataFile = none := if_pos hmeta
    simp [listed, hgone]

/-- The history has been written back when the power is lost. -/
theorem reopened_history_complete_sample :
    ∃ σ frame session item, PoweredEndpoint.initial.Reaches
        (poweredService Pairing.sample (HistoryDurable Pairing.sample)) σ ∧
      σ.running = some (.reopen, .done (frame, some session)) ∧ item ∈ σ.record ∧
      (item.id ∈ session.history.items.map (·.id) ∨ item.id ∈ σ.state.dropped) := by
  have hheld : ∀ path : Path Dir, (fun _ => false) path = true → path = metadataFile := by simp
  have hdurable : ∀ (m : Machine) accepted, m.Holds (fun _ => false) →
      HistoryDurable Pairing.sample m accepted := by
    intro m accepted hm item _ hlisted contents hcontents _ _
    rw [hm.written metadataFile rfl, List.mem_singleton] at hcontents
    have hfile : (m.world.fs.set metadataFile contents).files metadataFile =
        m.world.fs.files metadataFile := by
      simp [Fs.set, hcontents]
    exact .inl (listed_congr Crates.sample.lines hfile ▸ hlisted)
  obtain ⟨σ, frame, session, item, hrun, hrunning, hitem, -, -⟩ :=
    exists_reopened_sample hheld hdurable
  exact ⟨σ, frame, session, item, hrun, hrunning, hitem,
    reopened_history_complete hrun hrunning hitem⟩

/-- The renaming of the history is lost, and the transaction that followed it is not. -/
theorem reopened_history_incomplete :
    ∃ σ frame session item,
      PoweredEndpoint.initial.Reaches (poweredService Pairing.sample fun _ _ => True) σ ∧
      σ.running = some (.reopen, .done (frame, some session)) ∧ item ∈ σ.record ∧
      item.id ∉ session.history.items.map (·.id) ∧ item.id ∉ σ.state.dropped := by
  have hheld : ∀ path : Path Dir, decide (path = metadataFile) = true → path = metadataFile := by
    simp
  obtain ⟨σ, frame, session, item, hrun, hrunning, hitem, hdropped, hempty⟩ :=
    exists_reopened_sample hheld fun _ _ _ => trivial
  refine ⟨σ, frame, session, item, hrun, hrunning, hitem, ?_, ?_⟩
  · rw [hempty (by simp)]
    nofun
  · rw [hdropped]
    nofun

end Survival

end ClipSync
