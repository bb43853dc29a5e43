import ClipSync.Lib.Schedule
import ClipSync.Server.MailboxOutline

/-!
# What a room is started with

Any number of `clip_pending` and `load_pending` calls run beside the publication
worker. The newest snapshot of a room is in `dirty`, in the hands of the worker or
in `index`, but `load_pending` looks only at the two maps: while the worker writes a
snapshot, the room is started with an older clip or with none. A call that reads
`dirty` when a snapshot of the room is there, or when the worker holds none, returns a
clip that was the newest one at a moment of the call. Any call returns one that the
mailbox has been given.
-/

namespace ClipSync

open Lib Program

/-! ## The newest snapshot -/

/-- The last snapshot put into `dirty` for a room, or the one the mailbox was opened
with. -/
def newest (base : HashMap String Snapshot) (pended : List (String × Snapshot))
    (roomId : String) : Option Snapshot :=
  ((pended.filter fun e => e.1 = roomId).getLast?.map Prod.snd).or (base.lookup roomId)

/-- The snapshots put into `dirty` for a room, in order. -/
def inserts (roomId : String) (pended : List (String × Snapshot)) : List Snapshot :=
  (pended.filter fun e => e.1 = roomId).map Prod.snd

theorem newest_eq (base : HashMap String Snapshot) (pended : List (String × Snapshot))
    (roomId : String) :
    newest base pended roomId = (inserts roomId pended).getLast?.or (base.lookup roomId) := by
  rw [newest, inserts, List.getLast?_map]

variable {base : HashMap String Snapshot}

theorem newest_append_self (pended : List (String × Snapshot)) (roomId : String)
    (snapshot : Snapshot) :
    newest base (pended ++ [(roomId, snapshot)]) roomId = some snapshot := by
  simp [newest]

theorem newest_append_of_ne (pended : List (String × Snapshot)) {roomId other : String}
    (h : other ≠ roomId) (snapshot : Snapshot) :
    newest base (pended ++ [(other, snapshot)]) roomId = newest base pended roomId := by
  simp [newest, h]

/-- A snapshot that was the newest of its room at some time since `since`. -/
def Recent (base : HashMap String Snapshot) (since : ℕ) (pended : List (String × Snapshot))
    (roomId : String) (snapshot : Option Snapshot) : Prop :=
  ∃ upto, since ≤ upto ∧ upto ≤ pended.length ∧ snapshot = newest base (pended.take upto) roomId

variable {since : ℕ} {pended : List (String × Snapshot)} {roomId : String}
  {snapshot : Option Snapshot}

theorem recent_newest (h : since ≤ pended.length) :
    Recent base since pended roomId (newest base pended roomId) :=
  ⟨pended.length, h, le_rfl, by rw [List.take_length]⟩

theorem Recent.append (h : Recent base since pended roomId snapshot)
    (more : List (String × Snapshot)) : Recent base since (pended ++ more) roomId snapshot := by
  obtain ⟨upto, hsince, hupto, hsnapshot⟩ := h
  refine ⟨upto, hsince, ?_, ?_⟩
  · rw [List.length_append]
    exact hupto.trans (Nat.le_add_right _ _)
  · rw [List.take_append_of_le_length hupto]
    exact hsnapshot

/-! ## Where the newest snapshot is -/

namespace MailboxState

open WorkerPhase

def InFlight (s : MailboxState) (roomId : String) : Prop := ∃ x, s.taken = some (roomId, x)

/-- A snapshot in `dirty` is the newest one of its room, and one that the worker holds is
the newest one if there is none in `dirty`. -/
structure Unpublished (base : HashMap String Snapshot) (s : MailboxState) : Prop where
  dirty : ∀ {roomId x}, s.dirty.lookup roomId = some x → newest base s.pended roomId = some x
  taken : ∀ {roomId x}, s.dirty.lookup roomId = none → s.taken = some (roomId, x) →
    newest base s.pended roomId = some x

/-- The newest snapshot of a room is in `dirty`, else with the worker, else in
`index`. -/
structure Current (base : HashMap String Snapshot) (s : MailboxState) : Prop
    extends Unpublished base s where
  index : ∀ {roomId}, s.dirty.lookup roomId = none → ¬ s.InFlight roomId →
    newest base s.pended roomId = s.index.lookup roomId

/-- What is in `index`, or will be entered there next, is recent. -/
def Published (base : HashMap String Snapshot) (since : ℕ) (roomId : String)
    (s : MailboxState) : Prop :=
  Recent base since s.pended roomId (s.index.lookup roomId) ∧
    ∀ x, s.taken = some (roomId, x) → Recent base since s.pended roomId (some x)

/-- What a step may do to the others: nothing but add to `pended` and keep what is
published recent. -/
def Advances (base : HashMap String Snapshot) (s s' : MailboxState) : Prop :=
  (∃ more, s'.pended = s.pended ++ more) ∧ ∀ since roomId, since ≤ s.pended.length →
    Published base since roomId s → Published base since roomId s'

variable {s s' : MailboxState} {op : MailboxOp} {r : op.Res} {x : Snapshot} {roomId : String}

theorem lookup_dirtyOrInsert (dirty : HashMap String Snapshot) (roomId : String) (x : Snapshot) :
    (if roomId ∈ dirty then dirty else dirty.insert roomId x).lookup roomId =
      some ((dirty.lookup roomId).getD x) := by
  split
  case isTrue hmem =>
    obtain ⟨z, hz⟩ := Finmap.mem_iff.1 hmem
    rw [hz]
    rfl
  case isFalse hmem =>
    rw [Finmap.lookup_insert, Finmap.lookup_eq_none.2 hmem]
    rfl

theorem lookup_dirtyOrInsert_of_ne (dirty : HashMap String Snapshot) {other : String}
    (x : Snapshot) (h : other ≠ roomId) :
    (if roomId ∈ dirty then dirty else dirty.insert roomId x).lookup other =
      dirty.lookup other := by
  split
  · rfl
  · exact Finmap.lookup_insert_of_ne _ h

theorem Unpublished.dirtyInsert (h : Unpublished base s) (roomId : String) (x : Snapshot) :
    Unpublished base { s with dirty := s.dirty.insert roomId x
                              pended := s.pended ++ [(roomId, x)] } := by
  constructor
  · intro room y hlookup
    by_cases hroom : room = roomId
    · subst hroom
      rw [Finmap.lookup_insert] at hlookup
      rw [newest_append_self, hlookup]
    · rw [Finmap.lookup_insert_of_ne _ hroom] at hlookup
      rw [newest_append_of_ne _ (Ne.symm hroom)]
      exact h.dirty hlookup
  · intro room y hlookup htaken
    by_cases hroom : room = roomId
    · subst hroom
      rw [Finmap.lookup_insert] at hlookup
      cases hlookup
    · rw [Finmap.lookup_insert_of_ne _ hroom] at hlookup
      rw [newest_append_of_ne _ (Ne.symm hroom)]
      exact h.taken hlookup htaken

theorem Unpublished.dirtyRemove (h : Unpublished base s) (roomId : String) :
    Unpublished base { s with
      dirty := s.dirty.erase roomId
      taken := (s.dirty.lookup roomId).map fun x => (roomId, x) } := by
  constructor
  · intro room y hlookup
    by_cases hroom : room = roomId
    · subst hroom
      rw [Finmap.lookup_erase] at hlookup
      cases hlookup
    · rw [Finmap.lookup_erase_ne hroom] at hlookup
      exact h.dirty hlookup
  · intro room y _ htaken
    obtain ⟨z, hz, heq⟩ := Option.map_eq_some_iff.1 htaken
    cases heq
    exact h.dirty hz

theorem Unpublished.dirtyOrInsert (h : Unpublished base s) (hheld : s.taken = some (roomId, x)) :
    Unpublished base { s with
      dirty := if roomId ∈ s.dirty then s.dirty else s.dirty.insert roomId x
      taken := none } := by
  refine ⟨fun {room y} hlookup => ?_, fun _ htaken => nomatch htaken⟩
  by_cases hroom : room = roomId
  · subst hroom
    rw [lookup_dirtyOrInsert] at hlookup
    cases hlookup
    cases hdirty : s.dirty.lookup room with
    | none => exact h.taken hdirty hheld
    | some z => exact h.dirty hdirty
  · rw [lookup_dirtyOrInsert_of_ne _ _ hroom] at hlookup
    exact h.dirty hlookup

theorem Unpublished.exec (h : Unpublished base s) (horderly : Orderly s.taken op)
    (hexec : exec op s r s') : Unpublished base s' := by
  cases op with
  | dirtyInsert roomId x =>
    cases hexec
    exact h.dirtyInsert roomId x
  | dirtyRemove roomId =>
    obtain ⟨rfl, rfl⟩ := hexec
    exact h.dirtyRemove roomId
  | dirtyOrInsert roomId x =>
    cases hexec
    exact h.dirtyOrInsert horderly
  | indexInsert roomId x =>
    cases hexec
    exact ⟨h.dirty, fun _ htaken => nomatch htaken⟩
  | _ =>
    have hdirty := same_of_exec hexec .dirty (by simp [MailboxOp.changes])
    have hpended := same_of_exec hexec .pended (by simp [MailboxOp.changes])
    have htaken := same_of_exec hexec .taken (by simp [MailboxOp.changes])
    constructor
    · rw [hdirty, hpended]
      exact h.dirty
    · rw [hdirty, hpended, htaken]
      exact h.taken

theorem inFlight_of_taken {room : String} (hheld : s.taken = some (roomId, x))
    (h : s.InFlight room) : room = roomId := by
  obtain ⟨z, hz⟩ := h
  cases hheld.symm.trans hz
  rfl

theorem not_inFlight (hnone : s.taken = none) : ¬ s.InFlight roomId := by
  rintro ⟨z, hz⟩
  cases hnone.symm.trans hz

theorem Current.exec (h : Current base s) (horderly : Orderly s.taken op)
    (hkeeps : .index ∈ op.changes → .taken ∈ op.changes) (hexec : exec op s r s') :
    Current base s' := by
  refine ⟨h.toUnpublished.exec horderly hexec, fun {room} hlookup hflight => ?_⟩
  cases op with
  | dirtyInsert roomId x =>
    cases hexec
    by_cases hroom : room = roomId
    · subst hroom
      rw [Finmap.lookup_insert] at hlookup
      cases hlookup
    · rw [Finmap.lookup_insert_of_ne _ hroom] at hlookup
      rw [newest_append_of_ne _ (Ne.symm hroom)]
      exact h.index hlookup hflight
  | dirtyRemove roomId =>
    obtain ⟨rfl, rfl⟩ := hexec
    by_cases hroom : room = roomId
    · subst hroom
      cases hdirty : s.dirty.lookup room with
      | none => exact h.index hdirty (not_inFlight horderly)
      | some z =>
        refine absurd ⟨z, ?_⟩ hflight
        rw [hdirty]
        rfl
    · rw [Finmap.lookup_erase_ne hroom] at hlookup
      exact h.index hlookup (not_inFlight horderly)
  | dirtyOrInsert roomId x =>
    cases hexec
    have hroom : room ≠ roomId := by
      rintro rfl
      rw [lookup_dirtyOrInsert] at hlookup
      cases hlookup
    rw [lookup_dirtyOrInsert_of_ne _ _ hroom] at hlookup
    exact h.index hlookup fun hin => hroom (inFlight_of_taken horderly hin)
  | indexInsert roomId x =>
    cases hexec
    by_cases hroom : room = roomId
    · subst hroom
      rw [Finmap.lookup_insert]
      exact h.taken hlookup horderly
    · rw [Finmap.lookup_insert_of_ne _ hroom]
      exact h.index hlookup fun hin => hroom (inFlight_of_taken horderly hin)
  | indexRemove roomId => simp [MailboxOp.changes] at hkeeps
  | _ =>
    rw [same_of_exec hexec .dirty (by simp [MailboxOp.changes])] at hlookup
    rw [InFlight, same_of_exec hexec .taken (by simp [MailboxOp.changes])] at hflight
    rw [same_of_exec hexec .pended (by simp [MailboxOp.changes]),
      same_of_exec hexec .index (by simp [MailboxOp.changes])]
    exact h.index hlookup hflight

theorem Unpublished.advances (h : Unpublished base s) (horderly : Orderly s.taken op)
    (hkeeps : .index ∈ op.changes → .taken ∈ op.changes) (hexec : MailboxState.exec op s r s') :
    Advances base s s' := by
  cases op with
  | dirtyInsert roomId x =>
    cases hexec
    exact ⟨⟨_, rfl⟩, fun _ _ _ hpub => ⟨hpub.1.append _, fun y hy => (hpub.2 y hy).append _⟩⟩
  | dirtyRemove roomId =>
    obtain ⟨rfl, rfl⟩ := hexec
    refine ⟨⟨[], (List.append_nil _).symm⟩, fun since room hsince hpub => ⟨hpub.1, ?_⟩⟩
    intro y htaken
    obtain ⟨z, hz, heq⟩ := Option.map_eq_some_iff.1 htaken
    cases heq
    rw [← h.dirty hz]
    exact recent_newest hsince
  | dirtyOrInsert roomId x =>
    cases hexec
    exact ⟨⟨[], (List.append_nil _).symm⟩, fun _ _ _ hpub => ⟨hpub.1, fun _ hy => nomatch hy⟩⟩
  | indexInsert roomId x =>
    cases hexec
    refine ⟨⟨[], (List.append_nil _).symm⟩, fun since room _ hpub =>
      ⟨?_, fun _ hy => nomatch hy⟩⟩
    by_cases hroom : room = roomId
    · subst hroom
      rw [Finmap.lookup_insert]
      exact hpub.2 x horderly
    · rw [Finmap.lookup_insert_of_ne _ hroom]
      exact hpub.1
  | indexRemove roomId => simp [MailboxOp.changes] at hkeeps
  | _ =>
    have hpended := same_of_exec hexec .pended (by simp [MailboxOp.changes])
    refine ⟨⟨[], hpended.trans (List.append_nil _).symm⟩, fun since room _ hpub => ?_⟩
    rw [Published, hpended, same_of_exec hexec .index (by simp [MailboxOp.changes]),
      same_of_exec hexec .taken (by simp [MailboxOp.changes])]
    exact hpub

end MailboxState

/-! ## Calls beside the worker -/

/-- The worker, and the calls of `clip_pending` and `load_pending`. A load is known
by how many snapshots had been put into `dirty` when it read the clock, and by what
the clock said. -/
inductive MailboxThread where
  | worker
  | clip (n : ℕ) (roomId recipientFp : String) (clip : PendingClip)
  | load (n : ℕ) (roomId : String) (since : ℕ) (nowMs : Int64)
deriving DecidableEq

abbrev MailboxThread.Value : MailboxThread → Type
  | .worker => Finset String
  | .clip .. => Unit
  | .load .. => List (String × PendingClip)

abbrev MailboxThreads := Threads MailboxOp MailboxOp.Res MailboxThread.Value MailboxState

namespace PersistentMailbox

open MailboxState

variable (codec : MailboxCodec) (options : MailboxOptions)

def system : Threads.System MailboxOp MailboxOp.Res MailboxThread.Value MailboxState where
  exec _ := MailboxState.exec
  enter
    | .worker, some retry, s, p, s' => p = runWorker codec options retry ∧ s' = s
    | .clip _ roomId recipientFp clip, none, s, p, s' =>
      p = clipPending roomId recipientFp clip ∧ s' = s
    | .load _ roomId since nowMs, none, s, p, s' =>
      p = loadPendingAt options roomId nowMs ∧ since = s.pended.length ∧ s' = s
    | _, _, _, _, _ => False

def opened (fs : Fs Unit) (scan : Scan) : MailboxThreads where
  shared :=
    { fs := fs, index := scan.index, dirty := ∅, queued := ∅, signals := [],
      sizes := scan.sizes, degraded := false, lastError := none, pended := [], taken := none }
  threads
    | .worker => some (runWorker codec options ∅)
    | .clip .. | .load .. => none

/-- `load_pending` does not look into an empty entry of `dirty` while the worker holds a
snapshot of the room. -/
def LoadsSettled (_ : MailboxThread) (op : MailboxOp) (s : MailboxState) : Prop :=
  ∀ roomId, op = .dirtyGet roomId → s.dirty.lookup roomId = none → ¬ s.InFlight roomId

/-- Where a load stands: before its look into `dirty`, before its look into `index`,
or at its end. -/
def Loading (base : HashMap String Snapshot) (roomId : String) (since : ℕ) (nowMs : Int64)
    (p : MailboxProgram (List (String × PendingClip))) (s : MailboxState) : Prop :=
  since ≤ s.pended.length ∧
    (p = loadPendingAt options roomId nowMs ∨
      p = (MailboxProgram.indexGet roomId >>= fun x => pure (pendingAt options nowMs x)) ∧
        Published base since roomId s ∨
      ∃ snapshot, p = done (pendingAt options nowMs snapshot) ∧
        Recent base since s.pended roomId snapshot)

/-- What is known about the threads. Of a load it is known what was newest since the time
that `floor` tells. -/
def Local (base : HashMap String Snapshot) (floor : ℕ → ℕ) :
    (t : MailboxThread) → MailboxProgram t.Value → MailboxState → Prop
  | .worker, p, s => ∃ phase, WorkerPhase.Runs codec options phase p ∧ s.taken = phase.held
  | .clip .., p, _ => AllOps IsClip p
  | .load _ roomId since nowMs, p, s => Loading options base roomId (floor since) nowMs p s

def Sound (base : HashMap String Snapshot) (s : MailboxState) : Prop :=
  Current base s ∧ ∀ roomId, Published base 0 roomId s

variable {codec options} {base : HashMap String Snapshot} {s s' : MailboxState} {nowMs : Int64}
  {op : MailboxOp} {r : op.Res} {floor : ℕ → ℕ}

theorem Loading.advance {p : MailboxProgram (List (String × PendingClip))}
    (hadv : Advances base s s') (h : Loading options base roomId since nowMs p s) :
    Loading options base roomId since nowMs p s' := by
  obtain ⟨⟨more, hmore⟩, hpublished⟩ := hadv
  obtain ⟨hsince, hp⟩ := h
  refine ⟨?_, ?_⟩
  · rw [hmore, List.length_append]
    exact hsince.trans (Nat.le_add_right _ _)
  · rcases hp with hp | ⟨hp, hpub⟩ | ⟨x, hp, hx⟩
    · exact .inl hp
    · exact .inr (.inl ⟨hp, hpublished since roomId hsince hpub⟩)
    · refine .inr (.inr ⟨x, hp, ?_⟩)
      rw [hmore]
      exact hx.append more

theorem Local.advance {t u : MailboxThread} (hne : u ≠ t) (hadv : Advances base s s')
    (htaken : t ≠ .worker → s'.taken = s.taken) {q : MailboxProgram u.Value}
    (h : Local codec options base floor u q s) : Local codec options base floor u q s' := by
  cases u with
  | worker =>
    obtain ⟨phase, hruns, hheld⟩ := h
    exact ⟨phase, hruns, (htaken hne.symm).trans hheld⟩
  | clip n roomId recipientFp clip => exact h
  | load n roomId since nowMs => exact Loading.advance hadv h

theorem Loading.access {k : op.Res → MailboxProgram (List (String × PendingClip))}
    (hcur : Current base s) (h : Loading options base roomId since nowMs (call op k) s)
    (hpublished : op = .dirtyGet roomId → s.dirty.lookup roomId = none →
      Published base since roomId s)
    (hexec : exec op s r s') : s' = s ∧ Loading options base roomId since nowMs (k r) s := by
  obtain ⟨hsince, hp | ⟨hp, hpub⟩ | ⟨x, hp, -⟩⟩ := h
  · cases hp
    obtain ⟨rfl, rfl⟩ := hexec
    refine ⟨rfl, hsince, ?_⟩
    cases hdirty : s'.dirty.lookup roomId with
    | some x =>
      refine .inr (.inr ⟨some x, rfl, ?_⟩)
      rw [← hcur.dirty hdirty]
      exact recent_newest hsince
    | none => exact .inr (.inl ⟨rfl, hpublished rfl hdirty⟩)
  · cases hp
    obtain ⟨rfl, rfl⟩ := hexec
    exact ⟨rfl, hsince, .inr (.inr ⟨_, rfl, hpub.1⟩)⟩
  · cases hp

theorem Current.published (h : Current base s) (hsince : since ≤ s.pended.length)
    (hdirty : s.dirty.lookup roomId = none) (hfree : ¬ s.InFlight roomId) :
    Published base since roomId s := by
  refine ⟨?_, fun x hx => absurd ⟨x, hx⟩ hfree⟩
  rw [← h.index hdirty hfree]
  exact recent_newest hsince

theorem Sound.exec (h : Sound base s) (horderly : WorkerPhase.Orderly s.taken op)
    (hkeeps : .index ∈ op.changes → .taken ∈ op.changes) (hexec : exec op s r s') :
    Sound base s' ∧ Advances base s s' := by
  have hadv := h.1.advances horderly hkeeps hexec
  exact ⟨⟨h.1.exec horderly hkeeps hexec, fun roomId =>
    hadv.2 0 roomId (Nat.zero_le _) (h.2 roomId)⟩, hadv⟩

variable (codec options base floor) in
/-- The calls beside the worker, if a load that goes on to `index` finds there what was
newest since the time that `floor` tells. -/
theorem system_invariant (test : MailboxThread → MailboxOp → MailboxState → Prop)
    (hfloor : ∀ n, floor n ≤ n)
    (htest : ∀ {t s roomId since}, test t (.dirtyGet roomId) s → Sound base s →
      floor since ≤ s.pended.length → s.dirty.lookup roomId = none →
      Published base (floor since) roomId s) :
    Threads.Invariant ((system codec options).guarded test) (Sound base)
      (Local codec options base floor) where
  enter {t a s p s'} hsound hlast henter := by
    cases t with
    | worker =>
      cases a with
      | none => cases henter
      | some retry =>
        obtain ⟨rfl, rfl⟩ := henter
        obtain ⟨phase, rfl, hheld⟩ := hlast retry rfl
        exact ⟨hsound, ⟨.idle, WorkerPhase.runWorker_runs codec options retry, hheld⟩,
          fun _ _ _ => id⟩
    | clip n roomId recipientFp clip =>
      cases a with
      | none =>
        obtain ⟨rfl, rfl⟩ := henter
        exact ⟨hsound, clipPending_isClip roomId recipientFp clip, fun _ _ _ => id⟩
      | some _ => cases henter
    | load n roomId since nowMs =>
      cases a with
      | none =>
        obtain ⟨rfl, rfl, rfl⟩ := henter
        exact ⟨hsound, ⟨hfloor _, .inl rfl⟩, fun _ _ _ => id⟩
      | some _ => cases henter
  access {t op k s r s'} hsound hlocal hexec := by
    obtain ⟨hop, hexec⟩ := hexec
    cases t with
    | worker =>
      obtain ⟨phase, hruns, hheld⟩ := hlocal
      obtain ⟨phase', hflow, hrest⟩ := hruns r
      have horderly := WorkerPhase.orderly_of_flow hflow
      rw [← hheld] at horderly
      obtain ⟨hsound', hadv⟩ := hsound.exec horderly hflow.keepsIndex hexec
      exact ⟨hsound', ⟨phase', hrest, WorkerPhase.taken_of_flow hheld hflow hexec⟩,
        fun u hu q hq => Local.advance hu hadv (absurd rfl) hq⟩
    | clip n roomId recipientFp clip =>
      have hclip : IsClip op := hlocal.1
      obtain ⟨hsound', hadv⟩ := hsound.exec (WorkerPhase.orderly_of_isClip s.taken hclip)
        (fun hindex => absurd hindex (hclip.notMem_changes (by decide))) hexec
      have htaken : s'.taken = s.taken :=
        same_of_exec hexec .taken (hclip.notMem_changes (by decide))
      exact ⟨hsound', hlocal.2 r, fun u hu q hq => Local.advance hu hadv (fun _ => htaken) hq⟩
    | load n roomId since nowMs =>
      have hpublished : op = .dirtyGet roomId → s.dirty.lookup roomId = none →
          Published base (floor since) roomId s := by
        rintro rfl hdirty
        exact htest hop hsound hlocal.1 hdirty
      obtain ⟨rfl, hnext⟩ := Loading.access hsound.1 hlocal hpublished hexec
      exact ⟨hsound, hnext, fun u _ q hq => hq⟩

theorem opened_holds (fs : Fs Unit) (scan : Scan) :
    Threads.Holds (Sound scan.index) (Local codec options scan.index floor)
      (opened codec options fs scan) := by
  refine ⟨⟨⟨⟨fun h => ?_, fun _ h => ?_⟩, fun _ _ => rfl⟩, fun roomId => ⟨?_, fun x hx => ?_⟩⟩,
    fun t p hp => ?_⟩
  · cases h
  · cases h
  · exact recent_newest le_rfl
  · cases hx
  · cases t with
    | worker =>
      cases hp
      exact ⟨.idle, WorkerPhase.runWorker_runs codec options ∅, rfl⟩
    | clip n roomId recipientFp clip => cases hp
    | load n roomId since nowMs => cases hp

theorem Local.loaded {n : ℕ} {clips : List (String × PendingClip)}
    (h : Local codec options base floor (.load n roomId since nowMs) (done clips) s) :
    ∃ upto, floor since ≤ upto ∧ upto ≤ s.pended.length ∧
      clips = pendingAt options nowMs (newest base (s.pended.take upto) roomId) := by
  obtain ⟨-, hp | ⟨hp, -⟩ | ⟨snapshot, hp, upto, hsince, hupto, rfl⟩⟩ := h
  · cases hp
  · cases hp
  · cases hp
    exact ⟨upto, hsince, hupto, rfl⟩

variable (codec options)

/-- In every run in which no load finds nothing in `dirty` while the worker holds a snapshot
of its room, `load_pending` returns the clip that was the newest of the room at some
moment of the call, unless it has expired. -/
theorem loadPending_newest (fs : Fs Unit) (scan : Scan)
    {x : Threads MailboxOp MailboxOp.Res MailboxThread.Value MailboxState}
    (hrun : Threads.Reaches ((system codec options).guarded LoadsSettled)
      (opened codec options fs scan) x)
    {n : ℕ} {roomId : String} {since : ℕ} {nowMs : Int64}
    {clips : List (String × PendingClip)}
    (hdone : x.threads (.load n roomId since nowMs) = some (done clips)) :
    ∃ upto, since ≤ upto ∧ upto ≤ x.shared.pended.length ∧
      clips = pendingAt options nowMs (newest scan.index (x.shared.pended.take upto) roomId) := by
  have hinv := system_invariant codec options scan.index id LoadsSettled (fun _ => le_rfl)
    fun hsettled hsound hsince hdirty =>
      Current.published hsound.1 hsince hdirty (hsettled _ rfl hdirty)
  exact Local.loaded ((hinv.reaches (opened_holds fs scan) hrun).2 _ _ hdone)

/-! ## Loads at any time -/

/-- What the mailbox has been given for a room: the clip it was opened with and those
passed to it since. -/
def given (base : HashMap String Snapshot) (pended : List (String × Snapshot))
    (roomId : String) : List (String × PendingClip) :=
  ((base.lookup roomId).toList ++ inserts roomId pended).map fun x =>
    (x.recipientFp, x.toPendingClip)

/-- A list as `load_pending` returns it, from entries that the mailbox has been given. -/
def Loads (options : MailboxOptions) (kept loaded : List (String × PendingClip)) : Prop :=
  ∃ nowMs snapshot, (∀ x, snapshot = some x → (x.recipientFp, x.toPendingClip) ∈ kept) ∧
    loaded = pendingAt options nowMs snapshot

theorem mem_given {base : HashMap String Snapshot} {pended : List (String × Snapshot)} {upto : ℕ}
    {roomId : String} {x : Snapshot} (h : newest base (pended.take upto) roomId = some x) :
    (x.recipientFp, x.toPendingClip) ∈ given base pended roomId := by
  refine List.mem_map.2 ⟨x, List.mem_append.2 ?_, rfl⟩
  rw [newest_eq, Option.or_eq_some_iff] at h
  rcases h with h | ⟨-, h⟩
  · have htaken := (List.take_sublist upto pended).filter fun e => decide (e.1 = roomId)
    exact .inr ((htaken.map Prod.snd).subset (List.mem_of_getLast? h))
  · exact .inl (Option.mem_toList.2 h)

/-- Whatever the worker is doing, `load_pending` returns a clip that the mailbox has been
given for the room, unless it has expired, or nothing. -/
theorem loadPending_loads (fs : Fs Unit) (scan : Scan) {x : MailboxThreads}
    (hrun : Threads.Reaches (system codec options) (opened codec options fs scan) x) {n : ℕ}
    {roomId : String} {since : ℕ} {nowMs : Int64} {clips : List (String × PendingClip)}
    (hdone : x.threads (.load n roomId since nowMs) = some (done clips)) :
    Loads options (given scan.index x.shared.pended roomId) clips := by
  have hinv := system_invariant codec options scan.index (fun _ => 0) (fun _ _ _ => True)
    Nat.zero_le fun _ hsound _ _ => hsound.2 _
  obtain ⟨upto, -, -, rfl⟩ := Local.loaded
    ((hinv.reaches (opened_holds fs scan) (hrun.guarded fun _ _ _ => trivial)).2 _ _ hdone)
  exact ⟨nowMs, _, fun y hy => mem_given hy, rfl⟩

/-! ## A clip whose publication is in flight -/

def launch : (t : MailboxThread) → Option t.Value → MailboxState →
    Option (MailboxProgram t.Value × MailboxState)
  | .worker, some retry, s => some (runWorker codec options retry, s)
  | .clip _ roomId recipientFp clip, none, s => some (clipPending roomId recipientFp clip, s)
  | .load _ roomId since nowMs, none, s =>
    if since = s.pended.length then some (loadPendingAt options roomId nowMs, s) else none
  | _, _, _ => none

theorem enter_of_launch {t : MailboxThread} {a : Option t.Value} {s s' : MailboxState}
    {p : MailboxProgram t.Value} (h : launch codec options t a s = some (p, s')) :
    (system codec options).enter t a s p s' := by
  cases t with
  | worker | clip n roomId recipientFp clip =>
    cases a <;> cases h
    exact ⟨rfl, rfl⟩
  | load n roomId since nowMs =>
    cases a with
    | none =>
      obtain ⟨hsince, heq⟩ := Option.ite_none_right_eq_some.1 h
      cases heq
      exact ⟨rfl, hsince, rfl⟩
    | some _ => cases h

def replay : Threads.Replay (system codec options) MailboxChoice where
  access choice _ := tried choice
  enter _ := launch codec options
  exec_of_access := exec_of_tried
  enter_of_enter := enter_of_launch codec options

def settled (_ : MailboxThread) : MailboxOp → MailboxState → Bool
  | .dirtyGet roomId, s => (s.dirty.lookup roomId).isSome || s.taken.all fun e => e.1 ≠ roomId
  | _, _ => true

theorem loadsSettled_of_settled {t : MailboxThread} {op : MailboxOp} {s : MailboxState}
    (h : settled t op s = true) : LoadsSettled t op s := by
  rintro roomId rfl hdirty ⟨x, hx⟩
  simp [settled, hdirty, hx] at h

def sampleRoomId : String := "aaaaaaaaaaaaaaaaaaaaaaaaaaaaaaaa"

def sampleClip : PendingClip := ⟨"origin", "clip"⟩

def sampleMailboxCodec : MailboxCodec := .standard (fun _ => "") id

def sampleStart : MailboxThreads := opened sampleMailboxCodec {} ⟨fun _ => none, fun _ => []⟩ ⟨∅, ∅⟩

def sampleCall (n : ℕ) : MailboxThread := .clip n sampleRoomId "recipient" sampleClip

/-- The first clip is published; a load has found nothing in `dirty` when the second one
comes. -/
def overtaken : MailboxThreads :=
  ((replay sampleMailboxCodec {}).guarded settled loadsSettled_of_settled).final
    [⟨sampleCall 0, 4, { nowMs := 1 }⟩, ⟨.worker, 20, {}⟩, ⟨.load 0 sampleRoomId 1 1, 1, {}⟩,
      ⟨sampleCall 1, 4, { nowMs := 2 }⟩, ⟨.load 0 sampleRoomId 1 1, 1, {}⟩] sampleStart

/-- The load returns the first clip, the newest one when it began. -/
theorem loadPending_newest_sample :
    overtaken.threads (.load 0 sampleRoomId 1 1) = some (done [("recipient", sampleClip)]) ∧
    overtaken.shared.pended.length = 2 ∧
    (overtaken.shared.fs.files (path sampleRoomId)).isSome = true ∧
    ∃ upto, 1 ≤ upto ∧ upto ≤ overtaken.shared.pended.length ∧
      [("recipient", sampleClip)] =
        pendingAt {} 1 (newest ∅ (overtaken.shared.pended.take upto) sampleRoomId) := by
  have hdone : overtaken.threads (.load 0 sampleRoomId 1 1) =
      some (done [("recipient", sampleClip)]) := Threads.threads_of_value (by decide +kernel)
  have hrun : Threads.Reaches ((system sampleMailboxCodec {}).guarded LoadsSettled) sampleStart
      overtaken := Threads.Replay.reaches_final
  have hnewest := loadPending_newest sampleMailboxCodec {} ⟨fun _ => none, fun _ => []⟩ ⟨∅, ∅⟩ hrun
    hdone
  exact ⟨hdone, by decide +kernel, by decide +kernel, hnewest⟩

/-- A room started while its clip is being written finds nothing. -/
theorem loadPending_in_flight :
    ∃ x, Threads.Reaches (system sampleMailboxCodec {}) sampleStart x ∧
      x.threads (.load 0 sampleRoomId 1 1) = some (done []) ∧
      x.shared.pended.length = 1 ∧
      pendingAt {} 1 (newest ∅ x.shared.pended sampleRoomId) = [("recipient", sampleClip)] :=
  ⟨(replay sampleMailboxCodec {}).final [⟨sampleCall 0, 4, { nowMs := 1 }⟩, ⟨.worker, 3, {}⟩,
      ⟨.load 0 sampleRoomId 1 1, 2, {}⟩] sampleStart,
    Threads.Replay.reaches_final, Threads.threads_of_value (by decide +kernel), by decide +kernel,
    by decide +kernel⟩

end PersistentMailbox

end ClipSync
