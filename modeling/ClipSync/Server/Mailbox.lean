import ClipSync.Core.Serde
import ClipSync.Lib.FileSystem
import ClipSync.Lib.HashMap

/-!
# The persistent mailbox

`PersistentMailbox` of `crates/server/src/mailbox.rs`. The newest clip of a room is
put into `dirty` by the room's actor; the single publication worker takes it out,
writes it to the room's file and then enters it into `index`. Actors, worker and
sweeper share the maps, so all functions are programs over single accesses to them.
-/

namespace ClipSync

open Lib Lib.Json Program

/-- A clip waiting for an offline member. -/
structure PendingClip where
  originDevice : String
  ciphertextB64 : String
deriving DecidableEq

/-- The stored form of a clip that waits for a member of a room. -/
structure DiskMailbox where
  version : UInt32
  roomId : String
  recipientFp : String
  originFp : String
  ciphertextB64 : String
  tsMs : Int64
deriving DecidableEq

/-- The clip as it is kept in memory. -/
structure Snapshot where
  recipientFp : String
  originFp : String
  ciphertextB64 : String
  tsMs : Int64
deriving DecidableEq

namespace Snapshot

def toDisk (self : Snapshot) (roomId : String) : DiskMailbox where
  version := 1
  roomId := roomId
  recipientFp := self.recipientFp
  originFp := self.originFp
  ciphertextB64 := self.ciphertextB64
  tsMs := self.tsMs

def toPendingClip (self : Snapshot) : PendingClip where
  originDevice := self.originFp
  ciphertextB64 := self.ciphertextB64

end Snapshot

/-- The JSON of a snapshot file and the texts of the crates' errors. -/
structure MailboxCodec where
  toVecPretty : DiskMailbox → Bytes
  fromSlice : Bytes → Except String DiskMailbox
  base64Error : String → String
  fromSlice_toVecPretty : ∀ disk, fromSlice (toVecPretty disk) = .ok disk

namespace DiskMailbox

def toJson (disk : DiskMailbox) : Value :=
  .obj [("version", .int disk.version.toNat), ("room_id", .str disk.roomId),
    ("recipient_fp", .str disk.recipientFp), ("origin_fp", .str disk.originFp),
    ("ciphertext_b64", .str disk.ciphertextB64), ("ts_ms", .int disk.tsMs.toInt)]

def fieldNames : List String :=
  ["version", "room_id", "recipient_fp", "origin_fp", "ciphertext_b64", "ts_ms"]

/-- Members with other names are ignored. -/
def fromJson (value : Value) : Option DiskMailbox := do
  match ← record fieldNames (known fieldNames value) with
  | [version, roomId, recipientFp, originFp, ciphertextB64, tsMs] =>
    some ⟨← asU32 version, ← asStr roomId, ← asStr recipientFp, ← asStr originFp,
      ← asStr ciphertextB64, ← asI64 tsMs⟩
  | _ => none

theorem fromJson_toJson (disk : DiskMailbox) : fromJson disk.toJson = some disk := by
  simp [fromJson, toJson, fieldNames, record, known, List.lookup_cons, asStr]

theorem integral_toJson (disk : DiskMailbox) : Integral disk.toJson := by
  simp [toJson]

end DiskMailbox

/-- The derived serializer and reader. -/
def MailboxCodec.standard (jsonError : Bytes → String) (base64Error : String → String) :
    MailboxCodec where
  toVecPretty disk := toBytes .pretty disk.toJson
  fromSlice bytes :=
    match (fromBytes bytes).bind DiskMailbox.fromJson with
    | some disk => .ok disk
    | none => .error (jsonError bytes)
  base64Error := base64Error
  fromSlice_toVecPretty disk := by
    rw [fromBytes_printed _ disk.integral_toJson, Option.bind_some, disk.fromJson_toJson]

/-- Production uses a quota of 100 rooms of 24 MiB and a time to live of 7 days. -/
structure MailboxOptions where
  maxBytes : ℕ := 100 * 24 * 1024 * 1024
  ttlMs : Int64 := 7 * 24 * 60 * 60 * 1000

/-- `i64::saturating_sub`. -/
def saturatingSub (a b : Int64) : Int64 :=
  Int64.ofInt (max Int64.minValue.toInt (min Int64.maxValue.toInt (a.toInt - b.toInt)))

def isExpired (tsMs nowMs ttlMs : Int64) : Bool := ttlMs < saturatingSub nowMs tsMs

namespace Mailbox

/-- The checks of room ids and fingerprints, with their texts. -/
def validateHex (value : String) (length : ℕ) (message : String) : Except IoError Unit :=
  if (utf8Bytes value).length = length ∧ (utf8Bytes value).all isLowerHex then .ok ()
  else .error (.other message)

def validateRoomId (roomId : String) : Except IoError Unit :=
  validateHex roomId 32 "room id must be 32 lowercase hex characters"

def validateFingerprint (fp : String) : Except IoError Unit :=
  validateHex fp 64 "fingerprint must be 64 lowercase hex characters"

end Mailbox

def DiskMailbox.intoSnapshot (codec : MailboxCodec) (self : DiskMailbox) :
    Except IoError Snapshot := do
  if self.version ≠ 1 then
    throw (.other ("unsupported mailbox version " ++ toString self.version))
  Mailbox.validateRoomId self.roomId
  Mailbox.validateFingerprint self.recipientFp
  Mailbox.validateFingerprint self.originFp
  match Base64.decode self.ciphertextB64 with
  | none => throw (.other (codec.base64Error self.ciphertextB64))
  | some decoded =>
    if Base64.encode decoded ≠ self.ciphertextB64 then
      throw (.other "ciphertext_b64 must be canonical padded STANDARD base64")
    if self.tsMs ≤ 0 then
      throw (.other "ts_ms must be positive")
    return ⟨self.recipientFp, self.originFp, self.ciphertextB64, self.tsMs⟩

/-! ## Accesses -/

/-- The mailbox has one directory. -/
abbrev MailboxPath := Path Unit

/-- The single accesses to the clock, the files, the shared maps, the signals of the
worker and the health probe. `select` waits for a signal or, if some room is to be
retried, the retry tick; `drain` lists a set in some order. -/
inductive MailboxOp where
  | files (op : FsOp Unit)
  | metadataLen (path : MailboxPath)
  | unixTimeMs
  | dirtyInsert (roomId : String) (snapshot : Snapshot)
  | dirtyGet (roomId : String)
  | dirtyRemove (roomId : String)
  | dirtyOrInsert (roomId : String) (snapshot : Snapshot)
  | indexInsert (roomId : String) (snapshot : Snapshot)
  | indexGet (roomId : String)
  | indexRemove (roomId : String)
  | indexIter
  | queuedInsert (roomId : String)
  | queuedRemove (roomId : String)
  | send (roomId : String)
  | select (retry : Finset String)
  | drain (rooms : Finset String)
  | sizesGet
  | sizesInsert (roomId : String) (size : ℕ)
  | sizesRemove (roomId : String)
  | storeDegraded (degraded : Bool)
  | storeLastError (error : Option String)

abbrev MailboxOp.Res : MailboxOp → Type
  | .files op => op.Res
  | .metadataLen _ => Except IoError ℕ
  | .unixTimeMs => Int64
  | .dirtyGet _ | .dirtyRemove _ | .indexGet _ | .indexRemove _ => Option Snapshot
  | .indexIter => HashMap String Snapshot
  | .queuedInsert _ => Bool
  | .select _ => Option String
  | .drain _ => List String
  | .sizesGet => HashMap String ℕ
  | .dirtyInsert .. | .dirtyOrInsert .. | .indexInsert .. | .queuedRemove _ | .send _
  | .sizesInsert .. | .sizesRemove _ | .storeDegraded _ | .storeLastError _ => Unit

abbrev MailboxProgram := Program MailboxOp MailboxOp.Res

namespace MailboxProgram

def files {α : Type} (p : FsProgram Unit α) : MailboxProgram α :=
  p.lift fun op => perform (MailboxOp.files op)

def unixTimeMs : MailboxProgram Int64 := perform MailboxOp.unixTimeMs

def dirtyInsert (roomId : String) (snapshot : Snapshot) : MailboxProgram Unit :=
  perform (MailboxOp.dirtyInsert roomId snapshot)

def dirtyGet (roomId : String) : MailboxProgram (Option Snapshot) :=
  perform (MailboxOp.dirtyGet roomId)

def dirtyRemove (roomId : String) : MailboxProgram (Option Snapshot) :=
  perform (MailboxOp.dirtyRemove roomId)

def dirtyOrInsert (roomId : String) (snapshot : Snapshot) : MailboxProgram Unit :=
  perform (MailboxOp.dirtyOrInsert roomId snapshot)

def indexInsert (roomId : String) (snapshot : Snapshot) : MailboxProgram Unit :=
  perform (MailboxOp.indexInsert roomId snapshot)

def indexGet (roomId : String) : MailboxProgram (Option Snapshot) :=
  perform (MailboxOp.indexGet roomId)

def indexRemove (roomId : String) : MailboxProgram (Option Snapshot) :=
  perform (MailboxOp.indexRemove roomId)

def indexIter : MailboxProgram (HashMap String Snapshot) := perform MailboxOp.indexIter

def queuedInsert (roomId : String) : MailboxProgram Bool :=
  perform (MailboxOp.queuedInsert roomId)

def queuedRemove (roomId : String) : MailboxProgram Unit :=
  perform (MailboxOp.queuedRemove roomId)

def send (roomId : String) : MailboxProgram Unit := perform (MailboxOp.send roomId)

def select (retry : Finset String) : MailboxProgram (Option String) :=
  perform (MailboxOp.select retry)

def drain (rooms : Finset String) : MailboxProgram (List String) :=
  perform (MailboxOp.drain rooms)

def sizesGet : MailboxProgram (HashMap String ℕ) := perform MailboxOp.sizesGet

def sizesInsert (roomId : String) (size : ℕ) : MailboxProgram Unit :=
  perform (MailboxOp.sizesInsert roomId size)

def sizesRemove (roomId : String) : MailboxProgram Unit :=
  perform (MailboxOp.sizesRemove roomId)

def metadataLen (path : MailboxPath) : MailboxProgram (Except IoError ℕ) :=
  perform (MailboxOp.metadataLen path)

def storeDegraded (degraded : Bool) : MailboxProgram Unit :=
  perform (MailboxOp.storeDegraded degraded)

def storeLastError (error : Option String) : MailboxProgram Unit :=
  perform (MailboxOp.storeLastError error)

end MailboxProgram

/-! ## The functions of the mailbox -/

namespace HealthProbe

open MailboxProgram

def markDegraded (error : String) : MailboxProgram Unit := do
  storeLastError (some error)
  storeDegraded true

def markHealthy : MailboxProgram Unit := do
  storeDegraded false
  storeLastError none

end HealthProbe

namespace PersistentMailbox

open MailboxProgram

def tmpPath (roomId : String) : MailboxPath := ⟨(), "." ++ roomId ++ ".json.tmp"⟩

def path (roomId : String) : MailboxPath := ⟨(), roomId ++ ".json"⟩

/-- `name.strip_suffix(".json")`. -/
def stripJson (name : String) : Option String :=
  let stem := name.toList.take (name.toList.length - 5)
  if name.toList = stem ++ ".json".toList then some (String.ofList stem) else none

/-- The text of an I/O error. -/
def errorText : IoError → String
  | .notFound => "No such file or directory (os error 2)"
  | .other message => message

variable (codec : MailboxCodec) (options : MailboxOptions)

def readSnapshot (path : MailboxPath) (roomId : String) :
    MailboxProgram (Except IoError Snapshot) := do
  match ← files (perform (.read path : FsOp Unit)) with
  | .error error => return .error error
  | .ok bytes =>
    match codec.fromSlice bytes with
    | .error message => return .error (.other message)
    | .ok disk =>
      if disk.roomId ≠ roomId then
        return .error (.other "snapshot room_id does not match its filename")
      return disk.intoSnapshot codec

/-- The maps that a scan of the directory has filled so far. -/
structure Scan where
  index : HashMap String Snapshot
  sizes : HashMap String ℕ

/-- One directory entry of the scan. Files that are not snapshots are skipped, and
so are corrupt ones; expired ones are deleted. -/
def scanEntry (scan : Scan) (name : String) : MailboxProgram (Except IoError Scan) := do
  match stripJson name with
  | none => return .ok scan
  | some roomId =>
  match Mailbox.validateRoomId roomId with
  | .error _ => return .ok scan
  | .ok () =>
  match ← readSnapshot codec ⟨(), name⟩ roomId with
  | .error _ => return .ok scan
  | .ok snapshot =>
  if isExpired snapshot.tsMs (← unixTimeMs) options.ttlMs then
    let _ ← files (perform (.remove ⟨(), name⟩ : FsOp Unit))
    return .ok scan
  match ← metadataLen ⟨(), name⟩ with
  | .error error => return .error error
  | .ok size => return .ok ⟨scan.index.insert roomId snapshot, scan.sizes.insert roomId size⟩

def scanEntries : List String → Scan → MailboxProgram (Except IoError Scan)
  | [], scan => return .ok scan
  | name :: names, scan => do
    match ← scanEntry codec options scan name with
    | .error error => return .error error
    | .ok scan => scanEntries names scan

/-- The maps a mailbox is opened with. -/
def openScan : MailboxProgram (Except IoError Scan) := do
  match ← files (perform (.createDirAll () : FsOp Unit)) with
  | .error error => return .error error
  | .ok () =>
  match ← files (perform (.readDir () : FsOp Unit)) with
  | .error error => return .error error
  | .ok names => scanEntries codec options names ⟨∅, ∅⟩

/-- The quota is checked against the sizes of the files, the room's own taken out. -/
def writeSnapshot (roomId : String) (snapshot : Snapshot) :
    MailboxProgram (Except IoError ℕ) := do
  let encoded := codec.toVecPretty (snapshot.toDisk roomId)
  let sizes ← sizesGet
  let prospective := sizes.keys.sum (fun key => (sizes.lookup key).getD 0) -
    (sizes.lookup roomId).getD 0 + encoded.length
  if prospective > options.maxBytes then
    return .error (.other ("mailbox storage quota exceeded: " ++ toString prospective ++
      " > " ++ toString options.maxBytes))
  match ← files (FsProgram.atomicWrite ⟨false, false, true⟩ (tmpPath roomId) (path roomId)
      encoded) with
  | .error (_, error) => return .error error
  | .ok () => return .ok encoded.length

/-- Publishes the newest snapshot of one room. Returns the rooms to be retried. -/
def publish (roomId : String) (retry : Finset String) : MailboxProgram (Finset String) := do
  match ← dirtyRemove roomId with
  | none => return retry
  | some snapshot =>
  match ← writeSnapshot codec options roomId snapshot with
  | .ok size =>
    sizesInsert roomId size
    indexInsert roomId snapshot
    HealthProbe.markHealthy
    return retry
  | .error error =>
    HealthProbe.markDegraded (errorText error)
    dirtyOrInsert roomId snapshot
    return insert roomId retry

def publishQueued (retry : Finset String) (roomId : String) :
    MailboxProgram (Finset String) := do
  queuedRemove roomId
  publish codec options roomId retry

/-- One turn of the worker's loop. -/
def runWorker (retry : Finset String) : MailboxProgram (Finset String) := do
  match ← select retry with
  | some roomId => publishQueued codec options retry roomId
  | none => do
    let rooms ← drain retry
    rooms.foldlM (publishQueued codec options) ∅

/-- One room of a sweep; true if its snapshot was removed. -/
def sweepRoom (roomId : String) : MailboxProgram Bool := do
  match ← indexRemove roomId with
  | none => return false
  | some _ =>
    sizesRemove roomId
    let _ ← files (perform (.remove (path roomId) : FsOp Unit))
    let _ ← files (perform (.syncDir () : FsOp Unit))
    return true

/-- Deletes the snapshots older than the time to live; returns how many. -/
def sweepExpired (nowMs : Int64) : MailboxProgram ℕ := do
  let entries ← indexIter
  let rooms ← drain
    (entries.retain fun _ snapshot => isExpired snapshot.tsMs nowMs options.ttlMs).keys
  rooms.foldlM (fun removed roomId => do
    if ← sweepRoom roomId then return removed + 1 else return removed) 0

/-- Only updates the shared maps and signals the worker. -/
def clipPending (roomId recipientFp : String) (clip : PendingClip) : MailboxProgram Unit := do
  match Mailbox.validateRoomId roomId with
  | .error _ => return
  | .ok () =>
  let tsMs ← unixTimeMs
  dirtyInsert roomId ⟨recipientFp, clip.originDevice, clip.ciphertextB64, tsMs⟩
  if ← queuedInsert roomId then
    send roomId

/-- The clip a room is started with, if there is one that has not expired. -/
def pendingAt (nowMs : Int64) : Option Snapshot → List (String × PendingClip)
  | some snapshot =>
    if isExpired snapshot.tsMs nowMs options.ttlMs then []
    else [(snapshot.recipientFp, snapshot.toPendingClip)]
  | none => []

/-- `loadPending` from the moment it has read the clock. An unpublished snapshot wins
over the last published one. -/
def loadPendingAt (roomId : String) (nowMs : Int64) :
    MailboxProgram (List (String × PendingClip)) := do
  let snapshot ← match ← dirtyGet roomId with
    | some snapshot => pure (some snapshot)
    | none => indexGet roomId
  return pendingAt options nowMs snapshot

def loadPending (roomId : String) : MailboxProgram (List (String × PendingClip)) := do
  let nowMs ← unixTimeMs
  loadPendingAt options roomId nowMs

end PersistentMailbox

/-! ## Shared state -/

/-- The state the functions work on. `pended` remembers all snapshots that were put
into `dirty`, and `taken` is the one the worker has taken out and not yet entered
into `index` or put back. -/
structure MailboxState where
  fs : Fs Unit
  index : HashMap String Snapshot
  dirty : HashMap String Snapshot
  queued : Finset String
  signals : List String
  sizes : HashMap String ℕ
  degraded : Bool
  lastError : Option String
  pended : List (String × Snapshot)
  taken : Option (String × Snapshot)

namespace MailboxState

/-- The results and effects an access can have. -/
def exec : (op : MailboxOp) → MailboxState → op.Res → MailboxState → Prop
  | .files op, s, r, s' => ∃ fs, Fs.exec op s.fs r fs ∧ s' = { s with fs := fs }
  | .metadataLen path, s, .ok size, s' => s' = s ∧ (s.fs.files path).map List.length = some size
  | .metadataLen _, s, .error _, s' => s' = s
  | .unixTimeMs, s, _, s' => s' = s
  | .dirtyInsert roomId snapshot, s, (), s' =>
    s' = { s with dirty := s.dirty.insert roomId snapshot
                  pended := s.pended ++ [(roomId, snapshot)] }
  | .dirtyGet roomId, s, r, s' => r = s.dirty.lookup roomId ∧ s' = s
  | .dirtyRemove roomId, s, r, s' =>
    r = s.dirty.lookup roomId ∧
      s' = { s with dirty := s.dirty.erase roomId, taken := r.map fun x => (roomId, x) }
  | .dirtyOrInsert roomId snapshot, s, (), s' =>
    s' = { s with dirty := if roomId ∈ s.dirty then s.dirty
                    else s.dirty.insert roomId snapshot
                  taken := none }
  | .indexInsert roomId snapshot, s, (), s' =>
    s' = { s with index := s.index.insert roomId snapshot, taken := none }
  | .indexGet roomId, s, r, s' => r = s.index.lookup roomId ∧ s' = s
  | .indexRemove roomId, s, r, s' =>
    r = s.index.lookup roomId ∧ s' = { s with index := s.index.erase roomId }
  | .indexIter, s, r, s' => r = s.index ∧ s' = s
  | .queuedInsert roomId, s, r, s' =>
    r = decide (roomId ∉ s.queued) ∧ s' = { s with queued := insert roomId s.queued }
  | .queuedRemove roomId, s, (), s' => s' = { s with queued := s.queued.erase roomId }
  | .send roomId, s, (), s' => s' = { s with signals := s.signals ++ [roomId] }
  | .select _, s, some roomId, s' =>
    ∃ rest, s.signals = roomId :: rest ∧ s' = { s with signals := rest }
  | .select retry, s, none, s' => retry.Nonempty ∧ s' = s
  | .drain rooms, s, r, s' => r.Nodup ∧ r.toFinset = rooms ∧ s' = s
  | .sizesGet, s, r, s' => r = s.sizes ∧ s' = s
  | .sizesInsert roomId size, s, (), s' => s' = { s with sizes := s.sizes.insert roomId size }
  | .sizesRemove roomId, s, (), s' => s' = { s with sizes := s.sizes.erase roomId }
  | .storeDegraded degraded, s, (), s' => s' = { s with degraded := degraded }
  | .storeLastError error, s, (), s' => s' = { s with lastError := error }

end MailboxState

end ClipSync
