import ClipSync.Server.MailboxWorker

/-!
# The phases of a publication

A published snapshot is kept in three places: its file, the size of the file and its
entry in `index`. The worker fills them in this order. What is known of the store in a
phase of a publication is kept by the step to the next one, as long as the accesses to
the files do not fail.
-/

namespace ClipSync

open Lib Program

namespace PersistentMailbox

open MailboxState WorkerPhase

/-! ## Rooms in the store -/

/-- The part of the state that holds the published snapshots, and what the worker is
publishing. -/
structure Store where
  fs : Fs Unit
  index : HashMap String Snapshot
  sizes : HashMap String ℕ
  taken : Option (String × Snapshot)

def store (m : MailboxState) : Store := ⟨m.fs, m.index, m.sizes, m.taken⟩

namespace Store

def InFlight (v : Store) (roomId : String) : Prop := ∃ x, v.taken = some (roomId, x)

/-- A room is kept as it is. -/
structure SameRoom (roomId : String) (v v' : Store) : Prop where
  index : v'.index.lookup roomId = v.index.lookup roomId
  sizes : v'.sizes.lookup roomId = v.sizes.lookup roomId
  file : v'.fs.files (path roomId) = v.fs.files (path roomId)

/-- The entry in `index`, the size and the file of a room agree. -/
structure Agrees (codec : MailboxCodec) (roomId : String) (v : Store) : Prop where
  file : v.fs.files (path roomId) = (v.index.lookup roomId).map (encoded codec roomId)
  size : v.sizes.lookup roomId =
    (v.index.lookup roomId).map fun x => (encoded codec roomId x).length

variable {codec : MailboxCodec} {roomId : String} {v v' : Store}

theorem SameRoom.refl (roomId : String) (v : Store) : SameRoom roomId v v := ⟨rfl, rfl, rfl⟩

theorem Agrees.of_same (h : Agrees codec roomId v) (hsame : SameRoom roomId v v') :
    Agrees codec roomId v' := by
  constructor
  · rw [hsame.file, hsame.index]
    exact h.file
  · rw [hsame.sizes, hsame.index]
    exact h.size

end Store

open Store

variable {m m' : MailboxState}

theorem store_of_exec {op : MailboxOp} {r : op.Res} (h : exec op m r m')
    (hop : ∀ part ∈ [MailboxPart.files, .index, .sizes, .taken], part ∉ op.changes) :
    store m' = store m := by
  rw [store, store, show m'.fs = m.fs from same_of_exec h .files (hop _ (by simp)),
    show m'.index = m.index from same_of_exec h .index (hop _ (by simp)),
    show m'.sizes = m.sizes from same_of_exec h .sizes (hop _ (by simp)),
    show m'.taken = m.taken from same_of_exec h .taken (hop _ (by simp))]

def NoIoError : (op : MailboxOp) → MailboxState → op.Res → Prop
  | .files (.remove path), m, r => r = .ok () ∨ r = .error .notFound ∧ m.fs.files path = none
  | .files op, _, r => op.Succeeds r
  | _, _, _ => True

/-! ## A step of the worker -/

/-- What is in the store for the room that is published. Without failures of the file
system, a snapshot is put back only if the quota has refused it. -/
def Stored (codec : MailboxCodec) : WorkerPhase → Store → Prop
  | .idle, _ | .indexed, _ => True
  | .holding roomId _, v | .checked roomId _, v | .written roomId _, v | .failed roomId _, v
  | .degraded roomId _, v => Agrees codec roomId v
  | .renamed roomId x, v => v.fs.files (path roomId) = some (encoded codec roomId x)
  | .sized roomId x, v => v.fs.files (path roomId) = some (encoded codec roomId x) ∧
      v.sizes.lookup roomId = some (encoded codec roomId x).length

/-- What a step of the worker does: it touches the room it publishes only, and what it
gives up agrees. -/
structure PublishStep (codec : MailboxCodec) (op : MailboxOp) (v v' : Store) : Prop where
  same : ∀ roomId, ¬ v.InFlight roomId → SameRoom roomId v v'
  agrees : ∀ roomId, v.InFlight roomId → ¬ v'.InFlight roomId → Agrees codec roomId v'
  taken : ∀ roomId, v'.InFlight roomId → v.InFlight roomId ∨ op = .dirtyRemove roomId

variable {codec : MailboxCodec} {options : MailboxOptions} {phase phase' : WorkerPhase}
  {op : MailboxOp} {r : op.Res} {v v' : Store} {x : Snapshot} {roomId room : String}

theorem Stored.of_same (h : Stored codec phase v)
    (hsame : ∀ roomId x, phase.held = some (roomId, x) → SameRoom roomId v v') :
    Stored codec phase v' := by
  cases phase with
  | idle | indexed => trivial
  | renamed roomId x => exact (hsame roomId x rfl).file.trans h
  | sized roomId x =>
    exact ⟨(hsame roomId x rfl).file.trans h.1, (hsame roomId x rfl).sizes.trans h.2⟩
  | _ roomId x => exact Agrees.of_same h (hsame roomId x rfl)

theorem publishStep_refl (op : MailboxOp) (v : Store) : PublishStep codec op v v :=
  ⟨fun roomId _ => .refl roomId v, fun _ h h' => absurd h h', fun _ h => .inl h⟩

theorem publishStep_of_taken (htaken : v'.taken = v.taken)
    (hsame : ∀ roomId, ¬ v.InFlight roomId → SameRoom roomId v v') : PublishStep codec op v v' := by
  have hflight : ∀ roomId, v'.InFlight roomId ↔ v.InFlight roomId := by
    intro roomId
    rw [Store.InFlight, Store.InFlight, htaken]
  exact ⟨hsame, fun roomId h h' => absurd ((hflight roomId).2 h) h',
    fun roomId h => .inl ((hflight roomId).1 h)⟩

theorem publishStep_of_release (htaken : v.taken = some (roomId, x))
    (hnone : v'.taken = none) (hsame : ∀ room, room ≠ roomId → SameRoom room v v')
    (hagrees : Agrees codec roomId v') : PublishStep codec op v v' := by
  have hflight : ∀ room, v.InFlight room ↔ room = roomId := by
    intro room
    constructor
    · rintro ⟨y, hy⟩
      cases htaken.symm.trans hy
      rfl
    · rintro rfl
      exact ⟨x, htaken⟩
  refine ⟨fun room hroom => hsame room fun heq => hroom ((hflight room).2 heq), ?_, ?_⟩
  · intro room hroom _
    rw [(hflight room).1 hroom]
    exact hagrees
  · rintro room ⟨y, hy⟩
    cases hnone.symm.trans hy

theorem sameRoom_set {target : MailboxPath} (contents : Option Bytes)
    (h : target ≠ path roomId) : SameRoom roomId v { v with fs := v.fs.set target contents } :=
  ⟨rfl, rfl, Fs.set_files_of_ne h contents⟩

theorem not_inFlight_ne (htaken : v.taken = some (roomId, x)) (h : ¬ v.InFlight room) :
    room ≠ roomId := by
  rintro rfl
  exact h ⟨x, htaken⟩

/-- The temporary file is not part of the store. -/
theorem publishStep_temp (roomId : String) (contents : Option Bytes) :
    (∀ room, SameRoom room v { v with fs := v.fs.set (tmpPath roomId) contents }) ∧
      PublishStep codec op v { v with fs := v.fs.set (tmpPath roomId) contents } := by
  have hsame : ∀ room, SameRoom room v { v with fs := v.fs.set (tmpPath roomId) contents } :=
    fun room => sameRoom_set contents (tmpPath_ne_path roomId room)
  exact ⟨hsame, publishStep_of_taken rfl fun room _ => hsame room⟩

theorem stored_step (h : Stored codec phase (store m)) (hheld : m.taken = phase.held)
    (hdrafted : phase.Drafted codec m) (hflow : Flow codec options phase op r phase')
    (hexec : exec op m r m') (hok : NoIoError op m r)
    (hagrees : ∀ roomId, op = .dirtyRemove roomId → Agrees codec roomId (store m)) :
    Stored codec phase' (store m') ∧ PublishStep codec op (store m) (store m') := by
  cases hflow with
  | rest hop =>
    rw [store_of_exec hexec fun part hpart => hop.notMem_changes (by revert part; decide)]
    exact ⟨trivial, publishStep_refl _ _⟩
  | take r =>
    obtain ⟨-, rfl⟩ := hexec
    cases r with
    | none => exact ⟨trivial, publishStep_of_taken hheld.symm fun room _ => ⟨rfl, rfl, rfl⟩⟩
    | some x =>
      have hroom := hagrees _ rfl
      refine ⟨⟨hroom.file, hroom.size⟩, fun room _ => ⟨rfl, rfl, rfl⟩, ?_, ?_⟩
      · rintro room ⟨y, hy⟩
        cases hheld.symm.trans hy
      · rintro room ⟨y, hy⟩
        cases hy
        exact .inr rfl
  | check sizes =>
    rw [store_of_exec hexec fun _ _ => List.not_mem_nil]
    refine ⟨?_, publishStep_refl _ _⟩
    split <;> exact h
  | create r =>
    obtain ⟨fs, hfs, rfl⟩ := hexec
    cases r with
    | error e => cases hok
    | ok u =>
      cases hfs
      obtain ⟨hsame, hstep⟩ := publishStep_temp _ (some [])
      exact ⟨Agrees.of_same h (hsame _), hstep⟩
  | write r =>
    obtain ⟨fs, hfs, rfl⟩ := hexec
    cases r with
    | error e => cases hok
    | ok u =>
      cases hfs
      obtain ⟨hsame, hstep⟩ := publishStep_temp _ (some _)
      exact ⟨Agrees.of_same h (hsame _), hstep⟩
  | sync r | syncDir r =>
    obtain ⟨fs, rfl, rfl⟩ := hexec
    cases r with
    | error e => cases hok
    | ok u => exact ⟨h, publishStep_refl _ _⟩
  | @rename roomId x r =>
    obtain ⟨fs, hfs, rfl⟩ := hexec
    cases r with
    | error e => cases hok
    | ok u =>
      obtain ⟨contents, hcontents, rfl⟩ := hfs
      cases hcontents.symm.trans hdrafted
      refine ⟨Fs.replace_files_target, publishStep_of_taken rfl fun room hroom => ⟨rfl, rfl, ?_⟩⟩
      exact Fs.replace_files_of_ne (tmpPath_ne_path roomId room).symm
        fun heq => not_inFlight_ne hheld hroom (path_injective heq)
  | size =>
    cases hexec
    refine ⟨⟨h, Finmap.lookup_insert _⟩, publishStep_of_taken rfl fun other hother =>
      ⟨rfl, Finmap.lookup_insert_of_ne _ (not_inFlight_ne hheld hother), rfl⟩⟩
  | @enter roomId x =>
    cases hexec
    have hlookup : (m.index.insert roomId x).lookup roomId = some x := Finmap.lookup_insert _
    refine ⟨trivial, publishStep_of_release hheld rfl (fun other hother => ?_) ⟨?_, ?_⟩⟩
    · exact ⟨Finmap.lookup_insert_of_ne _ hother, rfl, rfl⟩
    · change m.fs.files (path roomId) = ((m.index.insert roomId x).lookup roomId).map _
      rw [hlookup]
      exact h.1
    · change m.sizes.lookup roomId = ((m.index.insert roomId x).lookup roomId).map _
      rw [hlookup]
      exact h.2
  | healthy | note | mark =>
    cases hexec
    exact ⟨h, publishStep_refl _ _⟩
  | putBack =>
    cases hexec
    exact ⟨trivial, publishStep_of_release hheld rfl (fun room _ => ⟨rfl, rfl, rfl⟩)
      ⟨h.file, h.size⟩⟩

end PersistentMailbox

end ClipSync
