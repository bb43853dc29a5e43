import ClipSync.Core.Serde
import ClipSync.Lib.FileSystem
import ClipSync.Lib.HashMap
import Mathlib.Data.String.Basic

/-!
# The room registry

`crates/server/src/registry.rs`. A room has two different members in canonical order,
which its record carries with the proof. `InMemoryRegistry` is a table of records;
`PersistentRegistry` writes the whole next table to a file before it replaces the
table in memory, so a call whose write fails leaves the table as it was.
-/

namespace ClipSync

open Lib Lib.Json Program

/-- 64 lower-case hexadecimal characters. -/
def isFingerprint (fp : String) : Bool :=
  (utf8Bytes fp).length = 64 ∧ (utf8Bytes fp).all isLowerHex

/-- The members of a room: two different fingerprints in order. -/
structure Members where
  first : String
  second : String
  first_lt_second : first < second
  isFingerprint_first : isFingerprint first = true
  isFingerprint_second : isFingerprint second = true
deriving DecidableEq

namespace Members

def toList (self : Members) : List String := [self.first, self.second]

theorem first_ne_second (self : Members) : self.first ≠ self.second :=
  self.first_lt_second.ne

/-- Checks two members and puts them in order. -/
def validate (a b : String) : Except IoError Members :=
  if heq : a = b then .error (.other "room members must be distinct")
  else if hfp : isFingerprint a = true ∧ isFingerprint b = true then
    if hlt : a < b then .ok ⟨a, b, hlt, hfp.1, hfp.2⟩
    else .ok ⟨b, a, lt_of_le_of_ne (not_lt.1 hlt) (Ne.symm heq), hfp.2, hfp.1⟩
  else .error (.other "room members must be 64 lowercase hex fingerprints")

theorem validate_first_second (self : Members) : validate self.first self.second = .ok self := by
  rw [validate, dif_neg self.first_ne_second,
    dif_pos ⟨self.isFingerprint_first, self.isFingerprint_second⟩, dif_pos self.first_lt_second]

theorem toList_of_validate {a b : String} {members : Members}
    (h : validate a b = .ok members) : a ≠ b ∧ (members.toList = [a, b] ∨
      members.toList = [b, a]) := by
  unfold validate at h
  split at h
  · cases h
  · rename_i hne
    refine ⟨hne, ?_⟩
    split at h
    · split at h
      · cases h
        exact .inl rfl
      · cases h
        exact .inr rfl
    · cases h

end Members

structure RoomRecord where
  members : Members
  createdAtMs : Int64
  activatedAtMs : Option Int64
  activatedMembers : Finset String
deriving DecidableEq

/-- The rooms by their ids. -/
abbrev RoomTable := HashMap String RoomRecord

/-- How a room came to be registered. -/
inductive RegistryCommit where
  | created
  | existing
deriving DecidableEq

def registryMaxRooms : ℕ := 100

namespace Registry

def validateRoomId (roomId : String) : Except IoError Unit :=
  if (utf8Bytes roomId).length = 32 ∧ (utf8Bytes roomId).all isLowerHex then .ok ()
  else .error (.other "room id must be 32 lowercase hex characters")

def lookupMembers (rooms : RoomTable) (roomId : String) : List String :=
  match rooms.lookup roomId with
  | some record => record.members.toList
  | none => []

/-- What `commit_room` answers and the table it leads to, if nothing fails. -/
def commitRoom (rooms : RoomTable) (roomId a b : String) (createdAtMs : Int64) :
    Except IoError (RegistryCommit × RoomTable) := do
  validateRoomId roomId
  let members ← Members.validate a b
  match rooms.lookup roomId with
  | some existing =>
    if existing.members = members then return (.existing, rooms)
    throw (.other "room id is registered to different members")
  | none =>
    if rooms.size ≥ registryMaxRooms then
      throw (.other "room registry quota exceeded")
    return (.created, rooms.insert roomId ⟨members, createdAtMs, none, ∅⟩)

/-- The rooms that have been activated or were created since the cutoff. -/
def retained (rooms : RoomTable) (cutoffMs : Int64) : RoomTable :=
  rooms.retain fun _ record => record.activatedAtMs.isSome || cutoffMs ≤ record.createdAtMs

variable {createdAtMs : Int64} {commit : RegistryCommit} {next rooms : RoomTable}
  {a b roomId : String}

theorem commitRoom_eq_ok (h : commitRoom rooms roomId a b createdAtMs = .ok (commit, next)) :
    ∃ members, Members.validate a b = .ok members ∧
      ((∃ existing, rooms.lookup roomId = some existing ∧ existing.members = members ∧
          commit = .existing ∧ next = rooms) ∨
        rooms.lookup roomId = none ∧ rooms.size < registryMaxRooms ∧ commit = .created ∧
          next = rooms.insert roomId ⟨members, createdAtMs, none, ∅⟩) := by
  unfold commitRoom at h
  cases hroom : validateRoomId roomId with
  | error e =>
    rw [hroom] at h
    cases h
  | ok u =>
    cases hmembers : Members.validate a b with
    | error e =>
      rw [hroom, hmembers] at h
      cases h
    | ok members =>
      rw [hroom, hmembers] at h
      simp only [bind, Except.bind, pure, Except.pure] at h
      refine ⟨members, rfl, ?_⟩
      split at h
      · rename_i existing hlookup
        split at h
        · rename_i heq
          cases h
          exact .inl ⟨existing, hlookup, heq, rfl, rfl⟩
        · cases h
      · rename_i hnone
        split at h
        · cases h
        · rename_i hsize
          cases h
          exact .inr ⟨hnone, Nat.not_le.1 hsize, rfl, rfl⟩

theorem validateRoomId_of_commitRoom
    (h : commitRoom rooms roomId a b createdAtMs = .ok (commit, next)) :
    validateRoomId roomId = .ok () := by
  unfold commitRoom at h
  cases hroom : validateRoomId roomId with
  | error e =>
    rw [hroom] at h
    cases h
  | ok _ => rfl

theorem lookup_of_commitRoom (h : commitRoom rooms roomId a b createdAtMs = .ok (commit, next)) :
    ∃ record, next.lookup roomId = some record ∧ Members.validate a b = .ok record.members := by
  obtain ⟨members, hmembers, ⟨existing, hlookup, rfl, -, rfl⟩ | ⟨-, -, -, rfl⟩⟩ :=
    commitRoom_eq_ok h
  · exact ⟨existing, hlookup, hmembers⟩
  · exact ⟨_, Finmap.lookup_insert _, hmembers⟩

theorem lookup_commitRoom_of_some {other : String} {record : RoomRecord}
    (h : commitRoom rooms roomId a b createdAtMs = .ok (commit, next))
    (hother : rooms.lookup other = some record) : next.lookup other = some record := by
  obtain ⟨members, -, ⟨existing, -, -, -, rfl⟩ | ⟨hnone, -, -, rfl⟩⟩ := commitRoom_eq_ok h
  · exact hother
  · rw [Finmap.lookup_insert_of_ne]
    · exact hother
    · rintro rfl
      rw [hnone] at hother
      cases hother

end Registry

/-! ## In memory -/

namespace InMemoryRegistry

/-- Every member that joins is noted; only the first join activates. -/
def activateOnFirstJoin (rooms : RoomTable) (roomId memberFp : String)
    (activatedAtMs : Int64) : Bool × RoomTable :=
  match rooms.lookup roomId with
  | none => (false, rooms)
  | some record =>
    if memberFp ∉ record.members.toList then (false, rooms)
    else
      let record := { record with activatedMembers := insert memberFp record.activatedMembers }
      if record.activatedAtMs.isSome then (false, rooms.insert roomId record)
      else (true, rooms.insert roomId { record with activatedAtMs := some activatedAtMs })

def pruneUnactivated (rooms : RoomTable) (cutoffMs : Int64) : ℕ × RoomTable :=
  (rooms.size - (Registry.retained rooms cutoffMs).size, Registry.retained rooms cutoffMs)

end InMemoryRegistry

/-! ## On disk -/

structure DiskRoom where
  roomId : String
  members : List String
  createdAtMs : Int64
  activatedAtMs : Option Int64
deriving DecidableEq

/-- The rows of the registry file as the JSON crate writes and reads them. -/
structure RegistryCodec where
  toVecPretty : List DiskRoom → Bytes
  fromSlice : Bytes → Except String (List DiskRoom)
  fromSlice_toVecPretty : ∀ rows, fromSlice (toVecPretty rows) = .ok rows

namespace DiskRoom

def ofRecord (roomId : String) (record : RoomRecord) : DiskRoom where
  roomId := roomId
  members := record.members.toList
  createdAtMs := record.createdAtMs
  activatedAtMs := record.activatedAtMs

/-- The members that have joined are not stored. -/
def intoRecord (self : DiskRoom) : Except IoError (String × RoomRecord) := do
  Registry.validateRoomId self.roomId
  match self.members with
  | [a, b] => do
    let members ← Members.validate a b
    return (self.roomId, ⟨members, self.createdAtMs, self.activatedAtMs, ∅⟩)
  | _ => throw (.other "room must have exactly two members")

end DiskRoom

namespace PersistentRegistry

def path : Path Unit := ⟨(), "rooms.json"⟩

def tempPath : Path Unit := ⟨(), ".rooms.json.tmp"⟩

/-- The rows in the order of the room ids. -/
def rows (rooms : RoomTable) : List DiskRoom :=
  rooms.sorted.map fun e => .ofRecord e.1 e.2

/-- Rows that are invalid, and later ones of a room that was read, are skipped. -/
def addRow (rooms : RoomTable) (row : DiskRoom) : RoomTable :=
  match row.intoRecord with
  | .ok (roomId, record) => if roomId ∈ rooms then rooms else rooms.insert roomId record
  | .error _ => rooms

variable (codec : RegistryCodec)

def openRegistry : FsProgram Unit (Except IoError RoomTable) := do
  match ← FsProgram.access (.createDirAll ()) with
  | .error error => return .error error
  | .ok () =>
  match ← FsProgram.access (.read path) with
  | .error .notFound => return .ok ∅
  | .error error => return .error error
  | .ok bytes =>
    match codec.fromSlice bytes with
    | .error message => return .error (.other message)
    | .ok rows => return .ok (rows.foldl addRow ∅)

def persist (rooms : RoomTable) : FsProgram Unit (Except IoError Unit) := do
  match ← FsProgram.atomicWrite ⟨false, false, true⟩ tempPath path
      (codec.toVecPretty (rows rooms)) with
  | .error (_, error) => return .error error
  | .ok () => return .ok ()

/-- The answer of a call, and the table in memory after it: the next one only if it
has been written. -/
def replace {α : Type} (rooms next : RoomTable) (answer : α) :
    FsProgram Unit (Except IoError α × RoomTable) := do
  match ← persist codec next with
  | .error error => return (.error error, rooms)
  | .ok () => return (.ok answer, next)

def commitRoom (rooms : RoomTable) (roomId a b : String) (createdAtMs : Int64) :
    FsProgram Unit (Except IoError RegistryCommit × RoomTable) :=
  match Registry.commitRoom rooms roomId a b createdAtMs with
  | .error error => return (.error error, rooms)
  | .ok (.existing, _) => return (.ok .existing, rooms)
  | .ok (.created, next) => replace codec rooms next .created

/-- Only the first join is noted. -/
def activateOnFirstJoin (rooms : RoomTable) (roomId memberFp : String)
    (activatedAtMs : Int64) : FsProgram Unit (Except IoError Bool × RoomTable) :=
  match rooms.lookup roomId with
  | none => return (.ok false, rooms)
  | some current =>
    if current.activatedAtMs.isSome ∨ memberFp ∉ current.members.toList then
      return (.ok false, rooms)
    else
      replace codec rooms
        (rooms.insert roomId
          { current with
            activatedAtMs := some activatedAtMs
            activatedMembers := insert memberFp current.activatedMembers })
        true

def pruneUnactivated (rooms : RoomTable) (cutoffMs : Int64) :
    FsProgram Unit (Except IoError ℕ × RoomTable) :=
  let next := Registry.retained rooms cutoffMs
  let removed := rooms.size - next.size
  if removed ≠ 0 then replace codec rooms next removed
  else return (.ok removed, rooms)

end PersistentRegistry

end ClipSync
