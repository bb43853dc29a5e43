import ClipSync.Server.MailboxPublish

/-!
# The sweeper beside the worker

The sweeper decides once which rooms have expired and then empties `index`, the sizes
and the files of these rooms one by one, while the worker fills them in the opposite
order. If both are at the same room, a snapshot that has just been published is swept
away, or an entry is left without its file. As long as the worker takes no snapshot of a
room that a sweep has collected and a sweep collects no room the worker is publishing,
the three agree whenever both are at rest, and only expired snapshots are removed.
-/

namespace ClipSync

open Lib Program

namespace PersistentMailbox

open MailboxState Store WorkerPhase

variable {m m' : MailboxState}

/-! ## A mailbox with its sweeper -/

/-- The mailbox, with the time that the last sweep was called with and the rooms that it
has collected and not yet dealt with. -/
structure SweptMailbox where
  mailbox : MailboxState
  nowMs : Int64
  collected : Finset String

variable (codec : MailboxCodec) (options : MailboxOptions)

def expiredRooms (nowMs : Int64) (index : HashMap String Snapshot) : Finset String :=
  (index.retain fun _ snapshot => isExpired snapshot.tsMs nowMs options.ttlMs).keys

theorem mem_expiredRooms {nowMs : Int64} {index : HashMap String Snapshot} {roomId : String} :
    roomId ∈ expiredRooms options nowMs index ↔
      ∃ x, index.lookup roomId = some x ∧ isExpired x.tsMs nowMs options.ttlMs = true := by
  rw [expiredRooms, Finmap.mem_keys, Finmap.mem_iff]
  simp only [HashMap.lookup_retain, Option.filter_eq_some_iff]

def collectedAfter (nowMs : Int64) (collected : Finset String) :
    (op : MailboxOp) → op.Res → Finset String
  | .indexIter, entries => expiredRooms options nowMs entries
  | .indexRemove roomId, none => collected.erase roomId
  | .files (.remove target), _ => collected.filter fun roomId => path roomId ≠ target
  | _, _ => collected

def SweptMailbox.sweep (s : SweptMailbox) (op : MailboxOp) (r : op.Res) (m : MailboxState) :
    SweptMailbox :=
  ⟨m, s.nowMs, collectedAfter options s.nowMs s.collected op r⟩

/-- The publications and the sweeps leave each other's rooms alone. -/
structure Separated (s : SweptMailbox) : Prop where
  agrees : ∀ roomId, roomId ∉ s.collected → ¬ (store s.mailbox).InFlight roomId →
    Agrees codec roomId (store s.mailbox)
  apart : ∀ roomId, (store s.mailbox).InFlight roomId → roomId ∉ s.collected

/-- What the sweeper is doing: collecting the expired rooms, listing them, or clearing
them one by one. A room is taken out of `index` and `sizes` before its file is
deleted. -/
inductive SweepPhase where
  | starting
  | listing (rooms : Finset String)
  | clearing (rest : List String)
  | unlisted (roomId : String) (rest : List String)
  | unsized (roomId : String) (rest : List String)
  | deleted (rest : List String)

namespace SweepPhase

def clearingAfter (roomId : String) (rest : List String) : Option Snapshot → SweepPhase
  | none => clearing rest
  | some _ => unlisted roomId rest

/-- The accesses of a sweep, and what it does after them. -/
inductive Flow (nowMs : Int64) : SweepPhase → (op : MailboxOp) → op.Res → SweepPhase → Prop where
  | collect {entries : HashMap String Snapshot} :
      Flow nowMs starting .indexIter entries (listing (expiredRooms options nowMs entries))
  | list {rooms : Finset String} {listed : List String} :
      Flow nowMs (listing rooms) (.drain rooms) listed (clearing listed)
  | unlist {roomId : String} {rest : List String} (r : Option Snapshot) :
      Flow nowMs (clearing (roomId :: rest)) (.indexRemove roomId) r (clearingAfter roomId rest r)
  | unsize {roomId : String} {rest : List String} {r : Unit} :
      Flow nowMs (unlisted roomId rest) (.sizesRemove roomId) r (unsized roomId rest)
  | delete {roomId : String} {rest : List String} {r : Except IoError Unit} :
      Flow nowMs (unsized roomId rest) (.files (.remove (path roomId))) r (deleted rest)
  | sync {rest : List String} {r : Except IoError Unit} :
      Flow nowMs (deleted rest) (.files (.syncDir ())) r (clearing rest)

def Doomed (s : SweptMailbox) (roomId : String) : Prop :=
  Agrees codec roomId (store s.mailbox) ∧ ∃ x, s.mailbox.index.lookup roomId = some x ∧
    isExpired x.tsMs s.nowMs options.ttlMs = true

def ExpiredFile (s : SweptMailbox) (roomId : String) : Prop :=
  ∃ x, s.mailbox.fs.files (path roomId) = some (encoded codec roomId x) ∧
    isExpired x.tsMs s.nowMs options.ttlMs = true

/-- The rooms still to be dealt with, of which those in `rest` have not been touched. -/
structure Remaining (s : SweptMailbox) (rooms rest : List String) : Prop where
  nodup : rooms.Nodup
  collected : s.collected = rooms.toFinset
  doomed : ∀ roomId ∈ rest, Doomed codec options s roomId

def Holds : SweepPhase → SweptMailbox → Prop
  | starting, s => s.collected = ∅
  | listing rooms, s => s.collected = rooms ∧ ∀ roomId ∈ rooms, Doomed codec options s roomId
  | clearing rest, s | deleted rest, s => Remaining codec options s rest rest
  | unlisted roomId rest, s => Remaining codec options s (roomId :: rest) rest ∧
      s.mailbox.index.lookup roomId = none ∧ ExpiredFile codec options s roomId
  | unsized roomId rest, s => Remaining codec options s (roomId :: rest) rest ∧
      s.mailbox.index.lookup roomId = none ∧ s.mailbox.sizes.lookup roomId = none ∧
        ExpiredFile codec options s roomId

abbrev Runs {α : Type} (nowMs : Int64) (before after : SweepPhase) (p : MailboxProgram α) :
    Prop :=
  Traces (Flow options nowMs) (fun phase _ => phase = after) before p

theorem sweepRoom_runs (nowMs : Int64) (roomId : String) (rest : List String) :
    Runs options nowMs (clearing (roomId :: rest)) (clearing rest) (sweepRoom roomId) := by
  refine fun snapshot => ⟨_, .unlist snapshot, ?_⟩
  cases snapshot with
  | none => exact rfl
  | some x => exact fun _ => ⟨_, .unsize, fun _ => ⟨_, .delete, fun _ => ⟨_, .sync, rfl⟩⟩⟩

theorem foldlM_runs (nowMs : Int64) (rooms : List String) (removed : ℕ) :
    Runs options nowMs (clearing rooms) (clearing [])
      (rooms.foldlM (fun removed roomId => do
        if ← sweepRoom roomId then return removed + 1 else return removed) removed) := by
  induction rooms generalizing removed with
  | nil => exact rfl
  | cons roomId rooms ih =>
    have hroom : Runs options nowMs (clearing (roomId :: rooms)) (clearing rooms) (do
        if ← sweepRoom roomId then return removed + 1 else return removed) := by
      refine traces_bind _ (sweepRoom_runs options nowMs roomId rooms) ?_
      rintro _ (_ | _) rfl
      · exact rfl
      · exact rfl
    refine traces_bind _ hroom ?_
    rintro _ removed rfl
    exact ih removed

theorem sweepExpired_runs (nowMs : Int64) :
    Runs options nowMs starting (clearing []) (sweepExpired options nowMs) :=
  fun _ => ⟨_, .collect, fun rooms => ⟨_, .list, foldlM_runs options nowMs rooms 0⟩⟩

end SweepPhase

/-! ## A step of the sweeper -/

/-- What a step of the sweeper does to the store. -/
structure SweepStep (collected : Finset String) (v v' : Store) : Prop where
  taken : v'.taken = v.taken
  temp : ∀ roomId, v'.fs.files (tmpPath roomId) = v.fs.files (tmpPath roomId)
  same : ∀ roomId, roomId ∉ collected → SameRoom roomId v v'

theorem SweepStep.refl (collected : Finset String) (v : Store) : SweepStep collected v v :=
  ⟨rfl, fun _ => rfl, fun roomId _ => .refl roomId v⟩

theorem SweepStep.mono {rooms collected : Finset String} {v v' : Store}
    (h : SweepStep rooms v v') (hsubset : rooms ⊆ collected) : SweepStep collected v v' :=
  ⟨h.taken, h.temp, fun roomId hroom => h.same roomId fun hmem => hroom (hsubset hmem)⟩

variable {codec options} {s s' : SweptMailbox}

namespace SweepPhase

variable {roomId : String}

theorem Doomed.of_same (h : Doomed codec options s roomId) (hnow : s'.nowMs = s.nowMs)
    (hsame : SameRoom roomId (store s.mailbox) (store s'.mailbox)) :
    Doomed codec options s' roomId := by
  obtain ⟨hagrees, x, hlookup, hexpired⟩ := h
  refine ⟨hagrees.of_same hsame, x, hsame.index.trans hlookup, ?_⟩
  rw [hnow]
  exact hexpired

theorem ExpiredFile.of_same (h : ExpiredFile codec options s roomId) (hnow : s'.nowMs = s.nowMs)
    (hfile : s'.mailbox.fs.files (path roomId) = s.mailbox.fs.files (path roomId)) :
    ExpiredFile codec options s' roomId := by
  obtain ⟨x, hx, hexpired⟩ := h
  refine ⟨x, hfile.trans hx, ?_⟩
  rw [hnow]
  exact hexpired

theorem Remaining.mem {rooms rest : List String} (h : Remaining codec options s rooms rest)
    (hmem : roomId ∈ rooms) : roomId ∈ s.collected := by
  rw [h.collected]
  exact List.mem_toFinset.2 hmem

theorem Remaining.of_same {rooms rest : List String} (h : Remaining codec options s rooms rest)
    (hnow : s'.nowMs = s.nowMs) (hcollected : s'.collected = s.collected)
    (hsame : ∀ roomId ∈ rest, SameRoom roomId (store s.mailbox) (store s'.mailbox)) :
    Remaining codec options s' rooms rest :=
  ⟨h.nodup, hcollected.trans h.collected,
    fun roomId hroom => (h.doomed roomId hroom).of_same hnow (hsame roomId hroom)⟩

theorem Holds.of_same {phase : SweepPhase} (h : phase.Holds codec options s)
    (hnow : s'.nowMs = s.nowMs) (hcollected : s'.collected = s.collected)
    (hsame : ∀ roomId ∈ s.collected, SameRoom roomId (store s.mailbox) (store s'.mailbox)) :
    phase.Holds codec options s' := by
  cases phase with
  | starting => exact hcollected.trans h
  | listing rooms =>
    obtain ⟨rfl, hdoomed⟩ := h
    exact ⟨hcollected, fun roomId hroom =>
      (hdoomed roomId hroom).of_same hnow (hsame roomId hroom)⟩
  | clearing rest | deleted rest =>
    exact Remaining.of_same h hnow hcollected fun roomId hroom => hsame roomId (h.mem hroom)
  | unlisted roomId rest =>
    obtain ⟨hrest, hindex, hfile⟩ := h
    have hroom := hsame roomId (hrest.mem List.mem_cons_self)
    exact ⟨hrest.of_same hnow hcollected fun room hmem =>
      hsame room (hrest.mem (List.mem_cons_of_mem _ hmem)),
      hroom.index.trans hindex, hfile.of_same hnow hroom.file⟩
  | unsized roomId rest =>
    obtain ⟨hrest, hindex, hsizes, hfile⟩ := h
    have hroom := hsame roomId (hrest.mem List.mem_cons_self)
    exact ⟨hrest.of_same hnow hcollected fun room hmem =>
      hsame room (hrest.mem (List.mem_cons_of_mem _ hmem)),
      hroom.index.trans hindex, hroom.sizes.trans hsizes, hfile.of_same hnow hroom.file⟩

theorem Holds.collected_of_ended {phase : SweepPhase} (h : phase.Holds codec options s)
    (hends : phase = clearing []) : s.collected = ∅ := by
  subst hends
  exact h.collected

theorem separated_of_step (h : Separated codec s)
    (hstep : SweepStep s.collected (store s.mailbox) (store s'.mailbox))
    (hsubset : s'.collected ⊆ s.collected)
    (hgone : ∀ roomId ∈ s.collected, roomId ∉ s'.collected →
      Agrees codec roomId (store s'.mailbox)) :
    Separated codec s' := by
  have hflight : ∀ roomId, (store s'.mailbox).InFlight roomId ↔
      (store s.mailbox).InFlight roomId := by
    intro roomId
    rw [Store.InFlight, Store.InFlight, hstep.taken]
  refine ⟨fun roomId hroom hfree => ?_, fun roomId hroom hmem => ?_⟩
  · by_cases hmem : roomId ∈ s.collected
    · exact hgone roomId hmem hroom
    · exact (h.agrees roomId hmem fun hin => hfree ((hflight roomId).2 hin)).of_same
        (hstep.same roomId hmem)
  · exact h.apart roomId ((hflight roomId).1 hroom) (hsubset hmem)

variable (codec options) in
/-- What a step of the sweeper leads to. -/
structure Leads (phase : SweepPhase) (s s' : SweptMailbox) : Prop where
  phase : phase.Holds codec options s'
  separated : Separated codec s'
  step : SweepStep s.collected (store s.mailbox) (store s'.mailbox)

theorem collect_step (hempty : s.collected = ∅) (hsep : Separated codec s)
    (hapart : ∀ roomId ∈ expiredRooms options s.nowMs s.mailbox.index,
      ¬ (store s.mailbox).InFlight roomId) :
    Leads codec options (listing (expiredRooms options s.nowMs s.mailbox.index)) s
      (s.sweep options .indexIter s.mailbox.index s.mailbox) := by
  have hfree : ∀ roomId, ¬ (store s.mailbox).InFlight roomId →
      Agrees codec roomId (store s.mailbox) := by
    refine fun roomId => hsep.agrees roomId ?_
    rw [hempty]
    exact Finset.notMem_empty roomId
  exact ⟨⟨rfl, fun roomId hroom => ⟨hfree roomId (hapart roomId hroom),
    (mem_expiredRooms options).1 hroom⟩⟩, ⟨fun roomId _ => hfree roomId,
      fun roomId hin hroom => hapart roomId hroom hin⟩, .refl _ _⟩

variable {rest : List String}

/-- The room at the head is touched, and the others are left alone. -/
theorem Remaining.touch (h : Remaining codec options s (roomId :: rest) rest)
    (hsep : Separated codec s) (hstep : SweepStep {roomId} (store s.mailbox) (store m)) :
    Remaining codec options { s with mailbox := m } (roomId :: rest) rest ∧
      Separated codec { s with mailbox := m } ∧
      SweepStep s.collected (store s.mailbox) (store m) := by
  have hwide := hstep.mono (Finset.singleton_subset_iff.2 (h.mem List.mem_cons_self))
  refine ⟨h.of_same rfl rfl fun room hroom => hstep.same room ?_,
    separated_of_step hsep hwide (fun _ => id) fun _ hmem hnot => absurd hmem hnot, hwide⟩
  rw [Finset.mem_singleton]
  rintro rfl
  exact (List.nodup_cons.1 h.nodup).1 hroom

theorem unlist_step (h : Remaining codec options s (roomId :: rest) (roomId :: rest))
    (hsep : Separated codec s) :
    Leads codec options (clearingAfter roomId rest (s.mailbox.index.lookup roomId)) s
      (s.sweep options (.indexRemove roomId) (s.mailbox.index.lookup roomId)
        { s.mailbox with index := s.mailbox.index.erase roomId }) := by
  obtain ⟨hagrees, x, hlookup, hexpired⟩ := h.doomed roomId List.mem_cons_self
  have hothers : Remaining codec options s (roomId :: rest) rest :=
    ⟨h.nodup, h.collected, fun room hroom => h.doomed room (List.mem_cons_of_mem _ hroom)⟩
  obtain ⟨hrest, hsep', hstep⟩ := hothers.touch hsep
    (m := { s.mailbox with index := s.mailbox.index.erase roomId })
    ⟨rfl, fun _ => rfl, fun _ hroom =>
      ⟨Finmap.lookup_erase_ne (Finset.notMem_singleton.1 hroom), rfl, rfl⟩⟩
  have hfile : s.mailbox.fs.files (path roomId) = some (encoded codec roomId x) := by
    have := hagrees.file
    rw [show (store s.mailbox).index.lookup roomId = some x from hlookup] at this
    exact this
  rw [hlookup]
  exact ⟨⟨hrest, Finmap.lookup_erase _ _, x, hfile, hexpired⟩, hsep', hstep⟩

theorem unsize_step (h : (unlisted roomId rest).Holds codec options s)
    (hsep : Separated codec s) :
    Leads codec options (unsized roomId rest) s (s.sweep options (.sizesRemove roomId) ()
      { s.mailbox with sizes := s.mailbox.sizes.erase roomId }) := by
  obtain ⟨hothers, hindex, hfile⟩ := h
  obtain ⟨hrest, hsep', hstep⟩ := hothers.touch hsep
    (m := { s.mailbox with sizes := s.mailbox.sizes.erase roomId })
    ⟨rfl, fun _ => rfl, fun _ hroom =>
      ⟨rfl, Finmap.lookup_erase_ne (Finset.notMem_singleton.1 hroom), rfl⟩⟩
  exact ⟨⟨hrest, hindex, Finmap.lookup_erase _ _, hfile⟩, hsep', hstep⟩

theorem Remaining.filter_path (h : Remaining codec options s (roomId :: rest) rest) :
    (s.collected.filter fun room => path room ≠ path roomId) = rest.toFinset := by
  ext room
  rw [Finset.mem_filter, h.collected, List.toFinset_cons, Finset.mem_insert]
  constructor
  · rintro ⟨rfl | hmem, hne⟩
    · exact absurd rfl hne
    · exact hmem
  · refine fun hmem => ⟨.inr hmem, fun heq => (List.nodup_cons.1 h.nodup).1 ?_⟩
    rw [← path_injective heq]
    exact List.mem_toFinset.1 hmem

theorem delete_step (h : (unsized roomId rest).Holds codec options s) (hsep : Separated codec s) :
    Leads codec options (deleted rest) s (s.sweep options (.files (.remove (path roomId)))
      (.ok ()) { s.mailbox with fs := s.mailbox.fs.set (path roomId) none }) := by
  obtain ⟨hothers, hindex, hsizes, -⟩ := h
  obtain ⟨hrest, -, hstep⟩ := hothers.touch hsep
    (m := { s.mailbox with fs := s.mailbox.fs.set (path roomId) none })
    ⟨rfl, fun room => Fs.set_files_of_ne (tmpPath_ne_path room roomId).symm none, fun _ hroom =>
      sameRoom_set none fun heq => Finset.notMem_singleton.1 hroom (path_injective heq).symm⟩
  refine ⟨⟨(List.nodup_cons.1 hrest.nodup).2, hothers.filter_path, hrest.doomed⟩,
    separated_of_step hsep hstep (Finset.filter_subset _ _) fun room hmem hnot => ?_, hstep⟩
  have hroom : room = roomId := by
    by_contra hne
    exact hnot (Finset.mem_filter.2 ⟨hmem, fun heq => hne (path_injective heq)⟩)
  subst hroom
  constructor
  · change (s.mailbox.fs.set (path room) none).files (path room) =
      (s.mailbox.index.lookup room).map _
    rw [hindex]
    exact Function.update_self _ _ _
  · change s.mailbox.sizes.lookup room = (s.mailbox.index.lookup room).map _
    rw [hindex, hsizes]
    rfl

theorem step {phase phase' : SweepPhase} {op : MailboxOp} {r : op.Res}
    (h : phase.Holds codec options s) (hsep : Separated codec s)
    (hflow : Flow options s.nowMs phase op r phase') (hexec : exec op s.mailbox r m)
    (hok : NoIoError op s.mailbox r)
    (hapart : op = .indexIter → ∀ roomId ∈ expiredRooms options s.nowMs s.mailbox.index,
      ¬ (store s.mailbox).InFlight roomId) :
    Leads codec options phase' s (s.sweep options op r m) := by
  cases hflow with
  | collect =>
    obtain ⟨rfl, rfl⟩ := hexec
    exact collect_step h hsep (hapart rfl)
  | list =>
    obtain ⟨hnodup, rfl, rfl⟩ := hexec
    exact ⟨⟨hnodup, h.1, fun roomId hroom => h.2 roomId (List.mem_toFinset.2 hroom)⟩,
      ⟨hsep.agrees, hsep.apart⟩, .refl _ _⟩
  | unlist =>
    obtain ⟨rfl, rfl⟩ := hexec
    exact unlist_step h hsep
  | unsize =>
    cases hexec
    exact unsize_step h hsep
  | delete =>
    obtain ⟨fs, hfs, rfl⟩ := hexec
    rcases hok with rfl | ⟨-, hnone⟩
    · cases hfs
      exact delete_step h hsep
    · obtain ⟨-, -, -, x, hfile, -⟩ := h
      cases hfile.symm.trans hnone
  | sync =>
    obtain ⟨fs, rfl, rfl⟩ := hexec
    exact ⟨⟨h.nodup, h.collected, h.doomed⟩, ⟨hsep.agrees, hsep.apart⟩, .refl _ _⟩

end SweepPhase

/-! ## Calls, worker and sweeper -/

/-- The worker, the calls of `clip_pending` and the sweeper task. -/
inductive SweepThread where
  | worker
  | clip (n : ℕ) (roomId recipientFp : String) (clip : PendingClip)
  | sweeper
deriving DecidableEq

abbrev SweepThread.Value : SweepThread → Type
  | .worker => Finset String
  | .clip .. => Unit
  | .sweeper => ℕ

abbrev SweptThreads := Threads MailboxOp MailboxOp.Res SweepThread.Value SweptMailbox

variable (codec options)

/-- The worker goes from turn to turn and the sweeper from sweep to sweep, each at a time
of the clock; calls can begin at any time. No access to the files fails. -/
def sweptSystem : Threads.System MailboxOp MailboxOp.Res SweepThread.Value SweptMailbox where
  exec
    | .sweeper, op, s, r, s' =>
      ∃ m, exec op s.mailbox r m ∧ NoIoError op s.mailbox r ∧ s' = s.sweep options op r m
    | _, op, s, r, s' =>
      ∃ m, exec op s.mailbox r m ∧ NoIoError op s.mailbox r ∧ s' = { s with mailbox := m }
  enter
    | .worker, some retry, s, p, s' => p = runWorker codec options retry ∧ s' = s
    | .clip _ roomId recipientFp clip, none, s, p, s' =>
      p = clipPending roomId recipientFp clip ∧ s' = s
    | .sweeper, some _, s, p, s' => ∃ nowMs, p = sweepExpired options nowMs ∧
        s' = { s with nowMs := nowMs, collected := ∅ }
    | _, _, _, _, _ => False

def sweptStart : SweptThreads where
  shared := ⟨(opened codec options ⟨fun _ => none, fun _ => []⟩ ⟨∅, ∅⟩).shared, 0, ∅⟩
  threads
    | .worker => some (runWorker codec options ∅)
    | .clip .. => none
    | .sweeper => some (done 0)

/-- The worker takes no snapshot of a room that a sweep has collected, and a sweep
collects no room whose snapshot the worker is publishing. -/
def Apart : SweepThread → MailboxOp → SweptMailbox → Prop
  | .worker, .dirtyRemove roomId, s => roomId ∉ s.collected
  | .sweeper, .indexIter, s => ∀ roomId ∈ expiredRooms options s.nowMs s.mailbox.index,
      ¬ s.mailbox.InFlight roomId
  | _, _, _ => True

def Stage : (t : SweepThread) → MailboxProgram t.Value → SweptMailbox → Prop
  | .worker, p, s => ∃ phase, WorkerPhase.Runs codec options phase p ∧
      s.mailbox.taken = phase.held ∧ phase.Drafted codec s.mailbox ∧
        Stored codec phase (store s.mailbox)
  | .clip .., p, _ => AllOps IsClip p
  | .sweeper, p, s => ∃ phase, SweepPhase.Runs options s.nowMs phase (.clearing []) p ∧
      phase.Holds codec options s

variable {codec options}

theorem separated_worker {op : MailboxOp} (h : Separated codec s)
    (hapart : Apart options .worker op s)
    (hstep : PublishStep codec op (store s.mailbox) (store m)) :
    Separated codec { s with mailbox := m } := by
  refine ⟨fun roomId hroom hfree => ?_, fun roomId hin => ?_⟩
  · by_cases hin : (store s.mailbox).InFlight roomId
    · exact hstep.agrees roomId hin hfree
    · exact (h.agrees roomId hroom hin).of_same (hstep.same roomId hin)
  · rcases hstep.taken roomId hin with hin | rfl
    · exact h.apart roomId hin
    · exact hapart

/-- The store is all that threads tell each other. -/
theorem Stage.of_store {u : SweepThread} {q : MailboxProgram u.Value}
    (h : Stage codec options u q s) (hstore : store m = store s.mailbox) :
    Stage codec options u q { s with mailbox := m } := by
  cases u with
  | worker =>
    obtain ⟨phase, hruns, hheld, hdrafted, hstored⟩ := h
    have htaken : m.taken = s.mailbox.taken := congrArg Store.taken hstore
    have hfs : m.fs = s.mailbox.fs := congrArg Store.fs hstore
    exact ⟨phase, hruns, htaken.trans hheld, hdrafted.of_temp fun _ => by rw [hfs],
      hstore.symm ▸ hstored⟩
  | clip n roomId recipientFp clip => exact h
  | sweeper =>
    obtain ⟨phase, hruns, hholds⟩ := h
    refine ⟨phase, hruns, hholds.of_same rfl rfl fun roomId _ => ?_⟩
    change SameRoom roomId (store s.mailbox) (store m)
    rw [hstore]
    exact .refl roomId _

variable (codec options)

theorem swept_invariant :
    Threads.Invariant ((sweptSystem codec options).guarded (Apart options)) (Separated codec)
      (Stage codec options) where
  enter {t a s p s'} hsep hlast henter := by
    cases t with
    | worker =>
      cases a with
      | none => cases henter
      | some retry =>
        obtain ⟨rfl, rfl⟩ := henter
        obtain ⟨phase, rfl, hheld, -⟩ := hlast retry rfl
        exact ⟨hsep, ⟨.idle, runWorker_runs codec options retry, hheld, trivial, trivial⟩,
          fun _ _ _ => id⟩
    | clip n roomId recipientFp clip =>
      cases a with
      | none =>
        obtain ⟨rfl, rfl⟩ := henter
        exact ⟨hsep, clipPending_isClip roomId recipientFp clip, fun _ _ _ => id⟩
      | some _ => cases henter
    | sweeper =>
      cases a with
      | none => cases henter
      | some removed =>
        obtain ⟨nowMs, rfl, rfl⟩ := henter
        obtain ⟨phase, hends, hholds⟩ := hlast removed rfl
        refine ⟨⟨fun roomId _ => hsep.agrees roomId ?_, fun _ _ => Finset.notMem_empty _⟩,
          ⟨.starting, SweepPhase.sweepExpired_runs options nowMs, rfl⟩, ?_⟩
        · rw [hholds.collected_of_ended hends]
          exact Finset.notMem_empty roomId
        · intro u hu q hq
          cases u with
          | worker => exact hq
          | clip n roomId recipientFp clip => exact hq
          | sweeper => exact absurd rfl hu
  access {t op k s r s'} hsep hstage hexec := by
    obtain ⟨hapart, hexec⟩ := hexec
    cases t with
    | worker =>
      obtain ⟨m, hexec, hok, rfl⟩ := hexec
      obtain ⟨phase, hruns, hheld, hdrafted, hstored⟩ := hstage
      obtain ⟨phase', hflow, hrest⟩ := hruns r
      have htake : ∀ roomId, op = .dirtyRemove roomId →
          Agrees codec roomId (store s.mailbox) := by
        rintro roomId rfl
        refine hsep.agrees roomId hapart (not_inFlight ?_)
        exact hheld.trans (orderly_of_flow hflow)
      obtain ⟨hnext, hstep⟩ := stored_step hstored hheld hdrafted hflow hexec hok htake
      refine ⟨separated_worker hsep hapart hstep, ⟨phase', hrest, taken_of_flow hheld hflow hexec,
        drafted_of_flow hdrafted hflow hexec, hnext⟩, fun u hu q hq => ?_⟩
      cases u with
      | worker => exact absurd rfl hu
      | clip n roomId recipientFp clip => exact hq
      | sweeper =>
        obtain ⟨phase, hruns, hholds⟩ := hq
        refine ⟨phase, hruns, hholds.of_same rfl rfl fun roomId hroom => ?_⟩
        exact hstep.same roomId fun hin => hsep.apart roomId hin hroom
    | clip n roomId recipientFp clip =>
      obtain ⟨m, hexec, -, rfl⟩ := hexec
      have hclip : IsClip op := hstage.1
      have hstore := store_of_exec hexec fun part hpart =>
        hclip.notMem_changes (by revert part; decide)
      refine ⟨?_, hstage.2 r, fun u _ q hq => hq.of_store hstore⟩
      refine ⟨fun room => ?_, fun room => ?_⟩
      · rw [hstore]
        exact hsep.agrees room
      · rw [hstore]
        exact hsep.apart room
    | sweeper =>
      obtain ⟨m, hexec, hok, rfl⟩ := hexec
      obtain ⟨phase, hruns, hholds⟩ := hstage
      have hcollect : op = .indexIter → ∀ roomId ∈ expiredRooms options s.nowMs s.mailbox.index,
          ¬ (store s.mailbox).InFlight roomId := by
        rintro rfl
        exact hapart
      obtain ⟨phase', hflow, hrest⟩ := hruns r
      obtain ⟨hnext, hsep', hstep⟩ := SweepPhase.step hholds hsep hflow hexec hok hcollect
      refine ⟨hsep', ⟨phase', hrest, hnext⟩, fun u hu q hq => ?_⟩
      cases u with
      | worker =>
        obtain ⟨phase, hruns, hheld, hdrafted, hstored⟩ := hq
        refine ⟨phase, hruns, hstep.taken.trans hheld, hdrafted.of_temp hstep.temp,
          hstored.of_same fun roomId x hx => hstep.same roomId (hsep.apart roomId ⟨x, ?_⟩)⟩
        exact hheld.trans hx
      | clip n roomId recipientFp clip => exact hq
      | sweeper => exact absurd rfl hu

theorem sweptStart_holds :
    Threads.Holds (Separated codec) (Stage codec options) (sweptStart codec options) := by
  refine ⟨⟨fun roomId _ _ => ⟨rfl, rfl⟩, fun _ _ => Finset.notMem_empty _⟩, fun t p hp => ?_⟩
  cases t with
  | worker =>
    cases hp
    exact ⟨.idle, runWorker_runs codec options ∅, rfl, trivial, trivial⟩
  | clip n roomId recipientFp clip => cases hp
  | sweeper =>
    cases hp
    exact ⟨.clearing [], rfl, List.nodup_nil, rfl, nofun⟩

/-! ## What a sweep removes, and what is left -/

theorem fromSlice_encoded (roomId : String) (x : Snapshot) :
    codec.fromSlice (encoded codec roomId x) = .ok (x.toDisk roomId) :=
  codec.fromSlice_toVecPretty _

/-- A room is in `index` iff it has a size iff it has a file, which holds the snapshot in
`index` and has that size. -/
structure Consistent (m : MailboxState) (roomId : String) : Prop where
  sized : roomId ∈ m.index ↔ roomId ∈ m.sizes
  filed : roomId ∈ m.sizes ↔ (m.fs.files (path roomId)).isSome
  decodes : ∀ x, m.index.lookup roomId = some x → ∃ bytes,
    m.fs.files (path roomId) = some bytes ∧ codec.fromSlice bytes = .ok (x.toDisk roomId) ∧
      m.sizes.lookup roomId = some bytes.length

def RemovesExpired (s : SweptMailbox) : MailboxOp → Prop
  | .indexRemove roomId => ∀ x, s.mailbox.index.lookup roomId = some x →
      isExpired x.tsMs s.nowMs options.ttlMs = true
  | .files (.remove target) => ∀ bytes, s.mailbox.fs.files target = some bytes →
      ∃ (roomId : String) (x : Snapshot), target = path roomId ∧
        codec.fromSlice bytes = .ok (x.toDisk roomId) ∧
          isExpired x.tsMs s.nowMs options.ttlMs = true
  | _ => True

variable {codec options}

variable {roomId : String}

theorem Store.Agrees.consistent (h : Agrees codec roomId (store m)) :
    Consistent codec m roomId := by
  have hfile : m.fs.files (path roomId) = (m.index.lookup roomId).map (encoded codec roomId) :=
    h.file
  have hsize : m.sizes.lookup roomId =
      (m.index.lookup roomId).map fun x => (encoded codec roomId x).length := h.size
  constructor
  · rw [← Finmap.lookup_isSome, ← Finmap.lookup_isSome, hsize, Option.isSome_map]
  · rw [← Finmap.lookup_isSome, hsize, hfile, Option.isSome_map, Option.isSome_map]
  · intro x hx
    rw [hx] at hfile hsize
    exact ⟨_, hfile, fromSlice_encoded codec roomId x, hsize⟩

theorem SweepPhase.Holds.removesExpired {phase phase' : SweepPhase} {op : MailboxOp} {r : op.Res}
    (h : phase.Holds codec options s)
    (hflow : SweepPhase.Flow options s.nowMs phase op r phase') :
    RemovesExpired codec options s op := by
  cases hflow with
  | collect | list | unsize | sync => trivial
  | unlist =>
    intro x hx
    obtain ⟨-, y, hy, hexpired⟩ := h.doomed _ List.mem_cons_self
    cases hx.symm.trans hy
    exact hexpired
  | @delete roomId =>
    obtain ⟨-, -, -, x, hfile, hexpired⟩ := h
    intro bytes hbytes
    cases hfile.symm.trans hbytes
    exact ⟨roomId, x, rfl, fromSlice_encoded codec roomId x, hexpired⟩

variable (codec options)

/-- In every run in which the sweeper and the worker keep apart: whenever no sweep and no
publication is in progress, the index, the sizes and the files agree, and whatever a sweep
is about to remove has expired. -/
theorem sweepExpired_consistent {x : SweptThreads}
    (hrun : Threads.Reaches ((sweptSystem codec options).guarded (Apart options))
      (sweptStart codec options) x) :
    (x.shared.mailbox.taken = none → (∃ removed, x.threads .sweeper = some (done removed)) →
      ∀ roomId, Consistent codec x.shared.mailbox roomId) ∧
    ∀ op k, x.threads .sweeper = some (call op k) → RemovesExpired codec options x.shared op := by
  obtain ⟨hsep, hstage⟩ :=
    (swept_invariant codec options).reaches (sweptStart_holds codec options) hrun
  refine ⟨?_, ?_⟩
  · rintro hnone ⟨removed, hdone⟩ roomId
    obtain ⟨phase, hends, hholds⟩ := hstage .sweeper _ hdone
    refine (hsep.agrees roomId ?_ ?_).consistent
    · rw [hholds.collected_of_ended hends]
      exact Finset.notMem_empty roomId
    · rintro ⟨y, hy⟩
      cases hnone.symm.trans hy
  · intro op k hrunning
    obtain ⟨phase, hruns, hholds⟩ := hstage .sweeper _ hrunning
    obtain ⟨r⟩ := op.nonempty_res
    obtain ⟨phase', hflow, -⟩ := hruns r
    exact hholds.removesExpired hflow

/-! ## A room published while it is swept -/

section Schedules

variable {choice : MailboxChoice} {t : SweepThread} {op : MailboxOp} {r : op.Res}
  {s s' : SweptMailbox}

theorem noIoError_of_undisturbed {op : FsOp Unit} {r : op.Res} {fs : Fs Unit}
    (h : Fs.undisturbed op m.fs = some (r, fs)) : NoIoError (.files op) m r := by
  cases op with
  | readDir dir => cases h
  | read path =>
    cases h
    intro message
    cases m.fs.files path <;> nofun
  | createNew path =>
    obtain ⟨-, heq⟩ := Option.ite_none_right_eq_some.1 h
    cases heq
    rfl
  | rename source target =>
    obtain ⟨contents, -, heq⟩ := Option.map_eq_some_iff.1 h
    cases heq
    rfl
  | remove path =>
    cases h
    exact .inl rfl
  | uniqueName => trivial
  | _ =>
    cases h
    rfl

/-- An access of a thread, with all accesses to the files successful. -/
def SweptMailbox.attempt (choice : MailboxChoice) (t : SweepThread) (op : MailboxOp)
    (s : SweptMailbox) : Option (op.Res × SweptMailbox) :=
  (tried { choice with fails := fun _ => false } op s.mailbox).map fun (r, m) =>
    (r, if t = .sweeper then s.sweep options op r m else { s with mailbox := m })

theorem exec_of_attempt (h : s.attempt options choice t op = some (r, s')) :
    (sweptSystem codec options).exec t op s r s' := by
  obtain ⟨⟨r, m⟩, htried, heq⟩ := Option.map_eq_some_iff.1 h
  cases heq
  have hok : NoIoError op s.mailbox r := by
    cases op with
    | files op =>
      obtain ⟨⟨r, fs⟩, hfs, heq⟩ := Option.map_eq_some_iff.1 htried
      cases heq
      exact noIoError_of_undisturbed hfs
    | _ => trivial
  cases t <;> exact ⟨m, exec_of_tried htried, hok, rfl⟩

def SweptMailbox.launch (choice : MailboxChoice) : (t : SweepThread) → Option t.Value →
    SweptMailbox → Option (MailboxProgram t.Value × SweptMailbox)
  | .worker, some retry, s => some (runWorker codec options retry, s)
  | .clip _ roomId recipientFp clip, none, s => some (clipPending roomId recipientFp clip, s)
  | .sweeper, some _, s =>
    some (sweepExpired options choice.nowMs, { s with nowMs := choice.nowMs, collected := ∅ })
  | _, _, _ => none

def sweptReplay : Threads.Replay (sweptSystem codec options) MailboxChoice where
  access choice t op s := s.attempt options choice t op
  enter := SweptMailbox.launch codec options
  exec_of_access := exec_of_attempt codec options
  enter_of_enter {choice t a s p s'} h := by
    cases t with
    | worker | clip n roomId recipientFp clip =>
      cases a <;> cases h
      exact ⟨rfl, rfl⟩
    | sweeper =>
      cases a <;> cases h
      exact ⟨choice.nowMs, rfl, rfl⟩

def apart : SweepThread → MailboxOp → SweptMailbox → Bool
  | .worker, .dirtyRemove roomId, s => roomId ∉ s.collected
  | .sweeper, .indexIter, s => s.mailbox.taken.all fun e =>
      e.1 ∉ expiredRooms options s.nowMs s.mailbox.index
  | _, _, _ => true

theorem apart_of_check (h : apart options t op s = true) : Apart options t op s := by
  cases t with
  | worker =>
    cases op with
    | dirtyRemove roomId => exact of_decide_eq_true (p := roomId ∉ s.collected) h
    | _ => trivial
  | clip n roomId recipientFp clip => trivial
  | sweeper =>
    cases op with
    | indexIter =>
      rintro roomId hmem ⟨x, hx⟩
      simp [apart, hx, hmem] at h
    | _ => trivial

end Schedules

namespace SweepSample

def call (n : ℕ) : SweepThread := .clip n sampleRoomId "recipient" sampleClip

def laterMs : Int64 := 1000000000000

/-- A clip is published, and has expired when the sweep comes. -/
def published : List (Threads.Move SweepThread MailboxChoice) :=
  [⟨call 0, 4, { nowMs := 1 }⟩, ⟨.worker, 20, {}⟩]

def swept : SweptThreads :=
  ((sweptReplay sampleMailboxCodec {}).guarded (apart {}) (apart_of_check {})).final
    (published ++ [⟨.sweeper, 20, { nowMs := laterMs, order := [sampleRoomId] }⟩])
    (sweptStart sampleMailboxCodec {})

/-- A sweep has listed the room when a fresh clip is published there. The worker has still
to enter it into `index`, and the sweep to delete the file. -/
def deletes : List (Threads.Move SweepThread MailboxChoice) :=
  published ++ [⟨.sweeper, 2, { nowMs := laterMs, order := [sampleRoomId] }⟩,
    ⟨call 1, 4, { nowMs := laterMs }⟩, ⟨.worker, 10, {}⟩, ⟨.sweeper, 2, {}⟩]

def deleting : SweptThreads :=
  (sweptReplay sampleMailboxCodec {}).final deletes (sweptStart sampleMailboxCodec {})

def ended : SweptThreads :=
  (sweptReplay sampleMailboxCodec {}).final (deletes ++ [⟨.sweeper, 20, {}⟩, ⟨.worker, 20, {}⟩])
    (sweptStart sampleMailboxCodec {})

def fresh : Snapshot := ⟨"recipient", "origin", "clip", laterMs⟩

def removed : MailboxOp → Option MailboxPath
  | .files (.remove target) => some target
  | _ => none

theorem deleting_removes : ∃ k, deleting.threads .sweeper =
    some (.call (.files (.remove (path sampleRoomId))) k) := by
  have hnext : (deleting.next .sweeper).bind removed = some (path sampleRoomId) := by
    decide +kernel
  obtain ⟨op, hop, hremoved⟩ := Option.bind_eq_some_iff.1 hnext
  obtain ⟨k, hk⟩ := Threads.threads_of_next hop
  unfold removed at hremoved
  split at hremoved
  · cases hremoved
    exact ⟨k, hk⟩
  · cases hremoved

end SweepSample

open SweepSample in
/-- The sweep of a room that is at rest. -/
theorem sweepExpired_consistent_sample :
    swept.threads .sweeper = some (done 1) ∧
    ((swept.shared.mailbox.taken = none →
      (∃ removed, swept.threads .sweeper = some (done removed)) →
        ∀ roomId, Consistent sampleMailboxCodec swept.shared.mailbox roomId) ∧
    ∀ op k, swept.threads .sweeper = some (.call op k) →
      RemovesExpired sampleMailboxCodec {} swept.shared op) := by
  have hrun : Threads.Reaches ((sweptSystem sampleMailboxCodec {}).guarded (Apart {}))
      (sweptStart sampleMailboxCodec {}) swept := Threads.Replay.reaches_final
  exact ⟨Threads.threads_of_value (by decide +kernel), sweepExpired_consistent _ _ hrun⟩

open SweepSample in
/-- A room whose fresh snapshot is published while it is swept: the sweep deletes the file
of a snapshot that has not expired, and the entry in `index` is left without its file. -/
theorem sweepExpired_removes_fresh :
    (∃ x op k, Threads.Reaches (sweptSystem sampleMailboxCodec {})
        (sweptStart sampleMailboxCodec {}) x ∧
      x.threads .sweeper = some (.call op k) ∧
        ¬ RemovesExpired sampleMailboxCodec {} x.shared op) ∧
    ∃ x, Threads.Reaches (sweptSystem sampleMailboxCodec {})
        (sweptStart sampleMailboxCodec {}) x ∧
      x.shared.mailbox.taken = none ∧ x.threads .sweeper = some (done 1) ∧
        ¬ Consistent sampleMailboxCodec x.shared.mailbox sampleRoomId := by
  obtain ⟨k, hk⟩ := deleting_removes
  refine ⟨⟨deleting, _, k, Threads.Replay.reaches_final, hk, fun hexpired => ?_⟩,
    ended, Threads.Replay.reaches_final, by decide +kernel,
    Threads.threads_of_value (by decide +kernel), fun hconsistent => ?_⟩
  · have hfile : deleting.shared.mailbox.fs.files (path sampleRoomId) =
        some (encoded sampleMailboxCodec sampleRoomId fresh) := by
      decide +kernel
    obtain ⟨roomId, x, -, hdecoded, hx⟩ := hexpired _ hfile
    rw [fromSlice_encoded] at hdecoded
    have hts : fresh.tsMs = x.tsMs := congrArg DiskMailbox.tsMs (Except.ok.inj hdecoded)
    rw [← hts] at hx
    exact absurd hx (by decide +kernel)
  · have hentry : ended.shared.mailbox.index.lookup sampleRoomId = some fresh := by
      decide +kernel
    obtain ⟨bytes, hbytes, -⟩ := hconsistent.decodes fresh hentry
    have hnone : ended.shared.mailbox.fs.files (path sampleRoomId) = none := by
      decide +kernel
    cases hnone.symm.trans hbytes

end PersistentMailbox

end ClipSync
