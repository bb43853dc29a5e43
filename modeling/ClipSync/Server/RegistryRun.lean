import ClipSync.Server.Registry

/-!
# The registry across restarts

A `PersistentRegistry` is used through the calls of the `Registry` trait and may be
opened again on its directory between any two of them. The record it keeps of a room
differs from the one of an `InMemoryRegistry` in the members that have joined: only the
first of them is noted, and none is stored. No answer depends on them. So the tables of
the two are compared after these members have been forgotten, and the file always holds
the table.
-/

namespace ClipSync

open Lib Lib.Json Program

/-! ## The rows of the file in JSON -/

namespace DiskRoom

def fieldNames : List String := ["room_id", "members", "created_at_ms", "activated_at_ms"]

def toJson (row : DiskRoom) : Value :=
  .obj [("room_id", .str row.roomId), ("members", .arr (row.members.map .str)),
    ("created_at_ms", .int row.createdAtMs.toInt),
    ("activated_at_ms", row.activatedAtMs.elim .null fun ms => .int ms.toInt)]

def asOptionI64 : Value → Option (Option Int64)
  | .null => some none
  | value => (asI64 value).map some

/-- A missing time of activation is read as `None`. -/
def withActivatedAt : Value → Value
  | .obj ms =>
    if "activated_at_ms" ∈ ms.map Prod.fst then .obj ms
    else .obj (ms ++ [("activated_at_ms", .null)])
  | value => value

def fromJson (value : Value) : Option DiskRoom := do
  match ← record fieldNames (known fieldNames (withActivatedAt value)) with
  | [roomId, members, createdAtMs, activatedAtMs] =>
    some ⟨← asStr roomId, ← asList asStr members, ← asI64 createdAtMs,
      ← asOptionI64 activatedAtMs⟩
  | _ => none

@[simp]
theorem asOptionI64_elim (ms : Option Int64) :
    asOptionI64 (ms.elim .null fun ms => .int ms.toInt) = some ms := by
  cases ms with
  | none => rfl
  | some ms => exact congrArg (Option.map some) (asI64_int ms)

theorem fromJson_toJson (row : DiskRoom) : fromJson row.toJson = some row := by
  simp [fromJson, toJson, withActivatedAt, fieldNames, record, known, List.lookup_cons, asStr]

theorem integral_toJson (row : DiskRoom) : Integral row.toJson := by
  cases hactivated : row.activatedAtMs <;> simp [toJson, hactivated]

end DiskRoom

namespace RegistryCodec

def toJson (rows : List DiskRoom) : Value := .obj [("rooms", .arr (rows.map DiskRoom.toJson))]

def fromJson (value : Value) : Option (List DiskRoom) := do
  match ← record ["rooms"] (known ["rooms"] value) with
  | [rooms] => asList DiskRoom.fromJson rooms
  | _ => none

theorem fromJson_toJson (rows : List DiskRoom) : fromJson (toJson rows) = some rows := by
  simp [fromJson, toJson, record, known, asList_map DiskRoom.fromJson_toJson]

theorem integral_toJson (rows : List DiskRoom) : Integral (toJson rows) := by
  simp [toJson, integralItems_map DiskRoom.integral_toJson]

def standard (jsonError : Bytes → String) : RegistryCodec where
  toVecPretty rows := toBytes .pretty (toJson rows)
  fromSlice bytes :=
    match (fromBytes bytes).bind fromJson with
    | some rows => .ok rows
    | none => .error (jsonError bytes)
  fromSlice_toVecPretty rows := by
    rw [fromBytes_printed _ (integral_toJson rows), Option.bind_some, fromJson_toJson]

end RegistryCodec

/-! ## Calls -/

/-- The calls of the `Registry` trait. -/
inductive RegistryCall where
  | lookupMembers (roomId : String)
  | commitRoom (roomId a b : String) (createdAtMs : Int64)
  | activateOnFirstJoin (roomId memberFp : String) (activatedAtMs : Int64)
  | pruneUnactivated (cutoffMs : Int64)

inductive RegistryAnswer where
  | members (fps : List String)
  | committed (result : Except IoError RegistryCommit)
  | activated (result : Except IoError Bool)
  | pruned (result : Except IoError ℕ)
deriving DecidableEq

def RegistryAnswer.IsError : RegistryAnswer → Prop
  | .members _ => False
  | .committed result => ∃ e, result = .error e
  | .activated result => ∃ e, result = .error e
  | .pruned result => ∃ e, result = .error e

/-- A call, or a restart. -/
inductive RegistryStep where
  | call (made : RegistryCall)
  | reopen

namespace InMemoryRegistry

def commitRoom (rooms : RoomTable) (roomId a b : String) (createdAtMs : Int64) :
    Except IoError RegistryCommit × RoomTable :=
  match Registry.commitRoom rooms roomId a b createdAtMs with
  | .error error => (.error error, rooms)
  | .ok (commit, next) => (.ok commit, next)

def answer (rooms : RoomTable) : RegistryCall → RegistryAnswer × RoomTable
  | .lookupMembers roomId => (.members (Registry.lookupMembers rooms roomId), rooms)
  | .commitRoom roomId a b createdAtMs =>
    let (result, next) := commitRoom rooms roomId a b createdAtMs
    (.committed result, next)
  | .activateOnFirstJoin roomId memberFp activatedAtMs =>
    let (result, next) := activateOnFirstJoin rooms roomId memberFp activatedAtMs
    (.activated (.ok result), next)
  | .pruneUnactivated cutoffMs =>
    let (result, next) := pruneUnactivated rooms cutoffMs
    (.pruned (.ok result), next)

def answers (rooms : RoomTable) : List RegistryStep → List RegistryAnswer × RoomTable
  | [] => ([], rooms)
  | .call made :: steps =>
    let rest := answers (answer rooms made).2 steps
    ((answer rooms made).1 :: rest.1, rest.2)
  | .reopen :: steps => answers rooms steps

end InMemoryRegistry

namespace PersistentRegistry

variable (codec : RegistryCodec)

def answer (rooms : RoomTable) : RegistryCall → FsProgram Unit (RegistryAnswer × RoomTable)
  | .lookupMembers roomId => return (.members (Registry.lookupMembers rooms roomId), rooms)
  | .commitRoom roomId a b createdAtMs => do
    let (result, next) ← commitRoom codec rooms roomId a b createdAtMs
    return (.committed result, next)
  | .activateOnFirstJoin roomId memberFp activatedAtMs => do
    let (result, next) ← activateOnFirstJoin codec rooms roomId memberFp activatedAtMs
    return (.activated result, next)
  | .pruneUnactivated cutoffMs => do
    let (result, next) ← pruneUnactivated codec rooms cutoffMs
    return (.pruned result, next)

def answers (rooms : RoomTable) : List RegistryStep →
    FsProgram Unit (Except IoError (List RegistryAnswer × RoomTable))
  | [] => return .ok ([], rooms)
  | .call made :: steps => do
    let (first, next) ← answer codec rooms made
    match ← answers next steps with
    | .error error => return .error error
    | .ok (rest, last) => return .ok (first :: rest, last)
  | .reopen :: steps => do
    match ← openRegistry codec with
    | .error error => return .error error
    | .ok next => answers next steps

def session (steps : List RegistryStep) :
    FsProgram Unit (Except IoError (List RegistryAnswer × RoomTable)) := do
  match ← openRegistry codec with
  | .error error => return .error error
  | .ok rooms => answers codec rooms steps

end PersistentRegistry

/-! ## What is stored of a record -/

def RoomRecord.stored (self : RoomRecord) : RoomRecord := { self with activatedMembers := ∅ }

theorem RoomRecord.stored_eq_iff {record record' : RoomRecord} :
    record.stored = record'.stored ↔ record.members = record'.members ∧
      record.createdAtMs = record'.createdAtMs ∧ record.activatedAtMs = record'.activatedAtMs := by
  simp [stored]

namespace RoomTable

def forget (rooms : RoomTable) : RoomTable := HashMap.mapValues RoomRecord.stored rooms

def Same (rooms rooms' : RoomTable) : Prop := rooms.forget = rooms'.forget

/-- What holds of the rooms of a registry. -/
structure Valid (rooms : RoomTable) : Prop where
  ids : ∀ roomId ∈ rooms, Registry.validateRoomId roomId = .ok ()
  size_le : HashMap.size rooms ≤ registryMaxRooms

variable {rooms rooms' : RoomTable}

theorem forget_forget : rooms.forget.forget = rooms.forget :=
  HashMap.mapValues_mapValues _ _ _

theorem same_forget : Same rooms.forget rooms := forget_forget

theorem lookup_forget (roomId : String) :
    rooms.forget.lookup roomId = (rooms.lookup roomId).map RoomRecord.stored :=
  HashMap.lookup_mapValues _ _ _

theorem size_forget : HashMap.size rooms.forget = HashMap.size rooms :=
  HashMap.size_mapValues _ _

theorem forget_insert (roomId : String) (record : RoomRecord) :
    forget (rooms.insert roomId record) = rooms.forget.insert roomId record.stored :=
  HashMap.mapValues_insert _ _ _ _

theorem forget_retained (cutoffMs : Int64) :
    forget (Registry.retained rooms cutoffMs) = Registry.retained rooms.forget cutoffMs :=
  HashMap.mapValues_retain (f := RoomRecord.stored) (fun _ _ => rfl) rooms

variable {record record' : RoomRecord} {roomId : String}

/-- The members that have joined may be changed. -/
theorem forget_insert_of_lookup (hlookup : rooms.lookup roomId = some record)
    (hstored : record'.stored = record.stored) :
    forget (rooms.insert roomId record') = rooms.forget := by
  rw [forget_insert, hstored]
  refine HashMap.insert_of_lookup ?_
  rw [lookup_forget, hlookup, Option.map_some]

theorem Same.lookup (h : Same rooms rooms') (roomId : String) :
    (rooms.lookup roomId).map RoomRecord.stored = (rooms'.lookup roomId).map RoomRecord.stored := by
  rw [← lookup_forget, ← lookup_forget, h]

theorem Same.lookup_cases (h : Same rooms rooms') (roomId : String) :
    (rooms.lookup roomId = none ∧ rooms'.lookup roomId = none) ∨
      ∃ record record', rooms.lookup roomId = some record ∧
        rooms'.lookup roomId = some record' ∧ record.stored = record'.stored := by
  have hstored := h.lookup roomId
  cases hrecord : rooms.lookup roomId with
  | none =>
    rw [hrecord, Option.map_none, eq_comm, Option.map_eq_none_iff] at hstored
    exact .inl ⟨rfl, hstored⟩
  | some record =>
    rw [hrecord, Option.map_some, eq_comm, Option.map_eq_some_iff] at hstored
    obtain ⟨record', hrecord', heq⟩ := hstored
    exact .inr ⟨record, record', rfl, hrecord', heq.symm⟩

theorem Same.size (h : Same rooms rooms') : HashMap.size rooms = HashMap.size rooms' := by
  rw [← size_forget, h, size_forget]

theorem Same.mem (h : Same rooms rooms') (hmem : roomId ∈ rooms) : roomId ∈ rooms' := by
  have hkeys : ∀ rooms : RoomTable, rooms.forget.keys = rooms.keys :=
    HashMap.keys_mapValues RoomRecord.stored
  rw [← Finmap.mem_keys, ← hkeys, ← h, hkeys, Finmap.mem_keys]
  exact hmem

theorem Same.insert (h : Same rooms rooms') (roomId : String)
    (hstored : record.stored = record'.stored) :
    Same (rooms.insert roomId record) (rooms'.insert roomId record') := by
  rw [Same, forget_insert, forget_insert, h, hstored]

theorem Same.retained (h : Same rooms rooms') (cutoffMs : Int64) :
    Same (Registry.retained rooms cutoffMs) (Registry.retained rooms' cutoffMs) := by
  rw [Same, forget_retained, forget_retained, h]

theorem Valid.of_same (hvalid : Valid rooms') (h : Same rooms rooms') : Valid rooms where
  ids roomId hmem := hvalid.ids roomId (h.mem hmem)
  size_le := h.size.trans_le hvalid.size_le

end RoomTable

/-! ## The answers do not depend on who has joined -/

namespace InMemoryRegistry

open RoomTable

variable {rooms rooms' : RoomTable}

theorem lookupMembers_congr (h : Same rooms rooms') (roomId : String) :
    Registry.lookupMembers rooms roomId = Registry.lookupMembers rooms' roomId := by
  unfold Registry.lookupMembers
  obtain ⟨hnone, hnone'⟩ | ⟨record, record', hrecord, hrecord', hstored⟩ := h.lookup_cases roomId
  · rw [hnone, hnone']
  · rw [hrecord, hrecord']
    exact congrArg Members.toList (RoomRecord.stored_eq_iff.1 hstored).1

theorem commitRoom_congr (h : Same rooms rooms') (roomId a b : String) (createdAtMs : Int64) :
    (commitRoom rooms roomId a b createdAtMs).1 = (commitRoom rooms' roomId a b createdAtMs).1 ∧
      Same (commitRoom rooms roomId a b createdAtMs).2
        (commitRoom rooms' roomId a b createdAtMs).2 := by
  unfold commitRoom Registry.commitRoom
  cases Registry.validateRoomId roomId with
  | error e => exact ⟨rfl, h⟩
  | ok _ =>
  cases Members.validate a b with
  | error e => exact ⟨rfl, h⟩
  | ok members =>
  simp only [bind, Except.bind, pure, Except.pure]
  obtain ⟨hnone, hnone'⟩ | ⟨record, record', hrecord, hrecord', hstored⟩ := h.lookup_cases roomId
  · rw [hnone, hnone', h.size]
    by_cases hfull : HashMap.size rooms' ≥ registryMaxRooms
    · simp only [if_pos hfull]
      exact ⟨rfl, h⟩
    · simp only [if_neg hfull, true_and]
      exact h.insert roomId rfl
  · rw [hrecord, hrecord']
    simp only [(RoomRecord.stored_eq_iff.1 hstored).1]
    by_cases hmembers : record'.members = members
    · simp only [if_pos hmembers, true_and]
      exact h
    · simp only [if_neg hmembers]
      exact ⟨rfl, h⟩

theorem activateOnFirstJoin_congr (h : Same rooms rooms') (roomId memberFp : String)
    (activatedAtMs : Int64) :
    (activateOnFirstJoin rooms roomId memberFp activatedAtMs).1 =
        (activateOnFirstJoin rooms' roomId memberFp activatedAtMs).1 ∧
      Same (activateOnFirstJoin rooms roomId memberFp activatedAtMs).2
        (activateOnFirstJoin rooms' roomId memberFp activatedAtMs).2 := by
  unfold activateOnFirstJoin
  obtain ⟨hnone, hnone'⟩ | ⟨record, record', hrecord, hrecord', hstored⟩ := h.lookup_cases roomId
  · rw [hnone, hnone']
    exact ⟨rfl, h⟩
  · rw [hrecord, hrecord']
    obtain ⟨hmembers, hcreated, hactivated⟩ := RoomRecord.stored_eq_iff.1 hstored
    simp only [hmembers, hactivated]
    by_cases hmember : memberFp ∉ record'.members.toList
    · simp only [if_pos hmember, true_and]
      exact h
    · simp only [if_neg hmember]
      by_cases hsome : record'.activatedAtMs.isSome = true
      · simp only [if_pos hsome, true_and]
        exact h.insert roomId (RoomRecord.stored_eq_iff.2 ⟨rfl, hcreated, rfl⟩)
      · simp only [if_neg hsome, true_and]
        exact h.insert roomId (RoomRecord.stored_eq_iff.2 ⟨rfl, hcreated, rfl⟩)

theorem answer_congr (h : Same rooms rooms') (made : RegistryCall) :
    (answer rooms made).1 = (answer rooms' made).1 ∧
      Same (answer rooms made).2 (answer rooms' made).2 := by
  cases made with
  | lookupMembers roomId => exact
      ⟨congrArg RegistryAnswer.members (lookupMembers_congr h roomId), h⟩
  | commitRoom roomId a b createdAtMs =>
    obtain ⟨hanswer, hsame⟩ := commitRoom_congr h roomId a b createdAtMs
    exact ⟨congrArg RegistryAnswer.committed hanswer, hsame⟩
  | activateOnFirstJoin roomId memberFp activatedAtMs =>
    obtain ⟨hanswer, hsame⟩ := activateOnFirstJoin_congr h roomId memberFp activatedAtMs
    exact ⟨congrArg (fun result => RegistryAnswer.activated (.ok result)) hanswer, hsame⟩
  | pruneUnactivated cutoffMs =>
    have hsame := h.retained cutoffMs
    refine ⟨?_, hsame⟩
    simp only [answer, pruneUnactivated, h.size, hsame.size]

theorem valid_answer (h : Valid rooms) (made : RegistryCall) : Valid (answer rooms made).2 := by
  cases made with
  | lookupMembers roomId => exact h
  | commitRoom roomId a b createdAtMs =>
    change Valid (commitRoom rooms roomId a b createdAtMs).2
    unfold commitRoom
    split
    · exact h
    · rename_i commit next hcommit
      obtain ⟨members, -, ⟨_, -, -, -, rfl⟩ | ⟨-, hsize, -, rfl⟩⟩ :=
        Registry.commitRoom_eq_ok hcommit
      · exact h
      · refine ⟨fun other hmem => ?_, (HashMap.size_insert_le _ _ _).trans hsize⟩
        rcases Finmap.mem_insert.1 hmem with rfl | hmem
        · exact Registry.validateRoomId_of_commitRoom hcommit
        · exact h.ids other hmem
  | activateOnFirstJoin roomId memberFp activatedAtMs =>
    change Valid (activateOnFirstJoin rooms roomId memberFp activatedAtMs).2
    have hinsert : ∀ record, roomId ∈ rooms → Valid (rooms.insert roomId record) := by
      intro record hroom
      refine ⟨fun other hmem => ?_, (HashMap.size_insert_of_mem hroom record).trans_le h.size_le⟩
      rcases Finmap.mem_insert.1 hmem with rfl | hmem
      · exact h.ids other hroom
      · exact h.ids other hmem
    unfold activateOnFirstJoin
    split
    · exact h
    · rename_i record hlookup
      have hroom := Finmap.mem_of_lookup_eq_some hlookup
      split
      · exact h
      · dsimp only
        split
        · exact hinsert _ hroom
        · exact hinsert _ hroom
  | pruneUnactivated cutoffMs =>
    refine ⟨fun roomId hmem => h.ids roomId ?_, (HashMap.size_retain_le _ _).trans h.size_le⟩
    exact Finmap.mem_keys.1 (HashMap.keys_retain_subset _ _ (Finmap.mem_keys.2 hmem))

end InMemoryRegistry

/-! ## The file holds the table -/

namespace PersistentRegistry

open RoomTable

variable {codec : RegistryCodec} {rooms : RoomTable} {s : Fs Unit}

def Kept (codec : RegistryCodec) (rooms : RoomTable) (s : Fs Unit) : Prop :=
  (s.files path = none ∧ rooms = ∅) ∨ s.files path = some (codec.toVecPretty (rows rooms))

theorem rows_forget : rows rooms.forget = rows rooms := by
  rw [rows, rows, forget, HashMap.sorted_mapValues, List.map_map]
  rfl

theorem addRow_ofRecord {roomId : String} (hid : Registry.validateRoomId roomId = .ok ())
    (record : RoomRecord) (rooms : RoomTable) :
    addRow rooms (.ofRecord roomId record) =
      if roomId ∈ rooms then rooms else rooms.insert roomId record.stored := by
  have hmembers := record.members.validate_first_second
  have hrecord : (DiskRoom.ofRecord roomId record).intoRecord = .ok (roomId, record.stored) := by
    simp [DiskRoom.intoRecord, DiskRoom.ofRecord, Members.toList, hid, hmembers, bind,
      Except.bind, pure, Except.pure, RoomRecord.stored]
  rw [addRow, hrecord]

theorem foldl_addRow_rows (h : Valid rooms) : (rows rooms).foldl addRow ∅ = rooms.forget := by
  have hkeys : (rooms.forget.sorted.map Prod.fst).Nodup := by
    rw [HashMap.map_fst_sorted]
    exact Finset.sort_nodup _ _
  calc (rows rooms).foldl addRow ∅
      = rooms.sorted.foldl
          (fun table e => if e.1 ∈ table then table else table.insert e.1 e.2.stored) ∅ := by
        rw [rows, List.foldl_map]
        refine List.foldl_ext _ _ _ fun table e he => addRow_ofRecord (h.ids e.1 ?_) e.2 table
        exact Finmap.mem_of_lookup_eq_some (HashMap.mem_sorted.1 he)
    _ = rooms.forget.sorted.foldl
          (fun table e => if e.1 ∈ table then table else table.insert e.1 e.2) ∅ := by
        rw [forget, HashMap.sorted_mapValues, List.foldl_map]
    _ = HashMap.ofList rooms.forget.sorted :=
        HashMap.foldl_insert_new hkeys fun _ _ => Finmap.notMem_empty
    _ = rooms.forget := HashMap.ofList_sorted _

/-- Opening the registry again gives the table back. -/
theorem total_openRegistry (hkept : Kept codec rooms s) (hvalid : Valid rooms) :
    Total Fs.succeed (fun r s' => ∃ next, r = .ok next ∧ Same next rooms ∧ Kept codec next s')
      (openRegistry codec) s := by
  refine ⟨⟨.ok (), s, rfl, rfl⟩, ?_⟩
  rintro _ _ ⟨hdir, rfl⟩
  cases hdir
  rcases hkept with ⟨hnone, rfl⟩ | hsome
  · refine ⟨⟨.error .notFound, s, ⟨rfl, hnone⟩, nofun⟩, ?_⟩
    rintro (error | bytes) _ ⟨hread, hok⟩
    · cases error with
      | notFound =>
        obtain ⟨rfl, -⟩ := hread
        exact ⟨∅, rfl, rfl, .inl ⟨hnone, rfl⟩⟩
      | other message => exact absurd rfl (hok message)
    · rw [hread.2] at hnone
      cases hnone
  · refine ⟨⟨.ok _, s, ⟨rfl, hsome⟩, nofun⟩, ?_⟩
    rintro (error | bytes) _ ⟨hread, hok⟩
    · cases error with
      | notFound =>
        rw [hread.2] at hsome
        cases hsome
      | other message => exact absurd rfl (hok message)
    · obtain ⟨rfl, hbytes⟩ := hread
      rw [hsome] at hbytes
      cases hbytes
      dsimp only [Program.bind]
      rw [codec.fromSlice_toVecPretty]
      refine ⟨_, rfl, ?_, ?_⟩
      · rw [foldl_addRow_rows hvalid]
        exact same_forget
      · rw [foldl_addRow_rows hvalid, Kept, rows_forget]
        exact .inr hsome

variable {α : Type}

theorem total_replace (next : RoomTable) (answer : α) :
    Total Fs.succeed (fun out s' => out = (.ok answer, next) ∧ Kept codec next s')
      (replace codec rooms next answer) s := by
  have hwrite : Total Fs.succeed (fun r s' => r = .ok () ∧
      s' = s.replace tempPath path (codec.toVecPretty (rows next))) (persist codec next) s := by
    have htemp : (⟨false, false, true⟩ : WriteMode).exclusive = true →
        s.files tempPath = none := nofun
    refine (FsProgram.total_atomicWrite htemp).bind ?_
    rintro _ _ ⟨rfl, rfl⟩
    exact ⟨rfl, rfl⟩
  refine hwrite.bind ?_
  rintro _ _ ⟨rfl, rfl⟩
  exact ⟨rfl, .inr Fs.replace_files_target⟩

/-- A call answers like the registry in memory. -/
theorem total_answer (hkept : Kept codec rooms s) (made : RegistryCall) :
    Total Fs.succeed (fun out s' => out.1 = (InMemoryRegistry.answer rooms made).1 ∧
        Same out.2 (InMemoryRegistry.answer rooms made).2 ∧ Kept codec out.2 s')
      (answer codec rooms made) s := by
  cases made with
  | lookupMembers roomId => exact ⟨rfl, rfl, hkept⟩
  | commitRoom roomId a b createdAtMs =>
    have hcall : Total Fs.succeed (fun out s' =>
        out = InMemoryRegistry.commitRoom rooms roomId a b createdAtMs ∧ Kept codec out.2 s')
        (commitRoom codec rooms roomId a b createdAtMs) s := by
      unfold commitRoom InMemoryRegistry.commitRoom
      cases hcommit : Registry.commitRoom rooms roomId a b createdAtMs with
      | error error => exact ⟨rfl, hkept⟩
      | ok result =>
        obtain ⟨commit, next⟩ := result
        cases commit with
        | created =>
          refine (total_replace next RegistryCommit.created).mono ?_
          rintro _ s' ⟨rfl, hnext⟩
          exact ⟨rfl, hnext⟩
        | existing =>
          obtain ⟨_, -, ⟨_, -, -, -, rfl⟩ | ⟨-, -, hcreated, -⟩⟩ :=
            Registry.commitRoom_eq_ok hcommit
          · exact ⟨rfl, hkept⟩
          · cases hcreated
    refine hcall.bind ?_
    rintro _ s' ⟨rfl, hnext⟩
    exact ⟨rfl, rfl, hnext⟩
  | activateOnFirstJoin roomId memberFp activatedAtMs =>
    have hcall : Total Fs.succeed (fun out s' =>
        out.1 = .ok (InMemoryRegistry.activateOnFirstJoin rooms roomId memberFp
          activatedAtMs).1 ∧
        Same out.2 (InMemoryRegistry.activateOnFirstJoin rooms roomId memberFp
          activatedAtMs).2 ∧ Kept codec out.2 s')
        (activateOnFirstJoin codec rooms roomId memberFp activatedAtMs) s := by
      unfold activateOnFirstJoin InMemoryRegistry.activateOnFirstJoin
      cases hlookup : rooms.lookup roomId with
      | none => exact ⟨rfl, rfl, hkept⟩
      | some current =>
        dsimp only
        by_cases hmember : memberFp ∉ current.members.toList
        · rw [if_pos hmember, if_pos (Or.inr hmember)]
          exact ⟨rfl, rfl, hkept⟩
        · rw [if_neg hmember]
          by_cases hsome : current.activatedAtMs.isSome = true
          · -- The join of another member is noted in memory only.
            rw [if_pos hsome, if_pos (Or.inl hsome)]
            refine ⟨rfl, Eq.symm ?_, hkept⟩
            exact forget_insert_of_lookup hlookup rfl
          · rw [if_neg hsome, if_neg (not_or.2 ⟨hsome, hmember⟩)]
            refine (total_replace _ true).mono ?_
            rintro _ s' ⟨rfl, hnext⟩
            exact ⟨rfl, rfl, hnext⟩
    refine hcall.bind ?_
    rintro ⟨result, next⟩ s' ⟨rfl, hsame, hnext⟩
    exact ⟨rfl, hsame, hnext⟩
  | pruneUnactivated cutoffMs =>
    have hcall : Total Fs.succeed (fun out s' =>
        out.1 = .ok (InMemoryRegistry.pruneUnactivated rooms cutoffMs).1 ∧
        Same out.2 (InMemoryRegistry.pruneUnactivated rooms cutoffMs).2 ∧ Kept codec out.2 s')
        (pruneUnactivated codec rooms cutoffMs) s := by
      unfold pruneUnactivated InMemoryRegistry.pruneUnactivated
      dsimp only
      split
      · refine (total_replace (Registry.retained rooms cutoffMs) _).mono ?_
        rintro _ s' ⟨rfl, hnext⟩
        exact ⟨rfl, rfl, hnext⟩
      · rename_i hremoved
        have hall : Registry.retained rooms cutoffMs = rooms :=
          HashMap.retain_eq_self (Nat.sub_eq_zero_iff_le.1 (not_not.1 hremoved))
        refine ⟨rfl, ?_, hkept⟩
        rw [hall]
        rfl
    refine hcall.bind ?_
    rintro ⟨result, next⟩ s' ⟨rfl, hsame, hnext⟩
    exact ⟨rfl, hsame, hnext⟩

/-! ## Whole sequences -/

/-- The table, the file and the table of a registry in memory after the same calls. -/
structure Refines (codec : RegistryCodec) (rooms : RoomTable) (s : Fs Unit)
    (memory : RoomTable) : Prop where
  same : Same rooms memory
  kept : Kept codec rooms s
  valid : Valid memory

variable {memory : RoomTable}

/-- Without a file there are no rooms. -/
theorem Refines.empty (hs : s.files path = none) : Refines codec ∅ s ∅ where
  same := rfl
  kept := .inl ⟨hs, rfl⟩
  valid := ⟨fun _ hmem => absurd hmem Finmap.notMem_empty, Nat.zero_le _⟩

theorem Refines.answer (h : Refines codec rooms s memory) (made : RegistryCall) :
    Total Fs.succeed (fun out s' => out.1 = (InMemoryRegistry.answer memory made).1 ∧
        Refines codec out.2 s' (InMemoryRegistry.answer memory made).2)
      (answer codec rooms made) s := by
  obtain ⟨hanswer, hsame⟩ := InMemoryRegistry.answer_congr h.same made
  refine (total_answer h.kept made).mono ?_
  rintro out s' ⟨hout, hnext, hkept⟩
  exact ⟨hout.trans hanswer, hnext.trans hsame, hkept, InMemoryRegistry.valid_answer h.valid made⟩

theorem Refines.openRegistry (h : Refines codec rooms s memory) :
    Total Fs.succeed (fun r s' => ∃ next, r = .ok next ∧ Refines codec next s' memory)
      (openRegistry codec) s := by
  refine (total_openRegistry h.kept (h.valid.of_same h.same)).mono ?_
  rintro _ s' ⟨next, rfl, hsame, hkept⟩
  exact ⟨next, rfl, hsame.trans h.same, hkept, h.valid⟩

theorem Refines.answers (h : Refines codec rooms s memory) (steps : List RegistryStep) :
    Total Fs.succeed (fun outcome s' => ∃ next,
        outcome = .ok ((InMemoryRegistry.answers memory steps).1, next) ∧
        Refines codec next s' (InMemoryRegistry.answers memory steps).2)
      (answers codec rooms steps) s := by
  induction steps generalizing rooms s memory with
  | nil => exact ⟨rooms, rfl, h⟩
  | cons step steps ih =>
    cases step with
    | call made =>
      refine (h.answer made).bind ?_
      rintro ⟨first, next⟩ s₁ ⟨rfl, hnext⟩
      refine (ih hnext).bind ?_
      rintro _ s₂ ⟨last, rfl, hlast⟩
      exact ⟨last, rfl, hlast⟩
    | reopen =>
      refine h.openRegistry.bind ?_
      rintro _ s₁ ⟨next, rfl, hnext⟩
      exact ih hnext

/-! ## Failed writes -/

/-- The access is one of `persist` up to its renaming, and it has failed. -/
def failsEarly : (op : FsOp Unit) → op.Res → Bool
  | .create _, r | .writeAll .., r | .syncAll _, r | .rename .., r => !r.isOk
  | _, _ => false

/-- The accesses with a mark that is set once `persist` has failed before its renaming. -/
def marked (op : FsOp Unit) (s : Fs Unit × Bool) (r : op.Res) (s' : Fs Unit × Bool) : Prop :=
  Fs.exec op s.1 r s'.1 ∧ s'.2 = (s.2 || failsEarly op r)

/-- What the mark says: the answer is an error, and neither the table nor the file has
changed. -/
def Unchanged (rooms : RoomTable) (s : Fs Unit) {α : Type} (IsError : α → Prop)
    (out : α × RoomTable) (s' : Fs Unit × Bool) : Prop :=
  s'.2 = true → IsError out.1 ∧ out.2 = rooms ∧ s'.1.files path = s.files path

theorem tempPath_ne_path : tempPath ≠ path := by decide

theorem leaves_create : FsOp.Leaves path (.create tempPath) := tempPath_ne_path

theorem leaves_writeAll (contents : Bytes) : FsOp.Leaves path (.writeAll tempPath contents) :=
  tempPath_ne_path

theorem safe_persist (next : RoomTable) :
    Safe marked (fun _ => True)
      (fun r s' => s'.2 = true → (∃ e, r = .error e) ∧ s'.1.files path = s.files path)
      (persist codec next) (s, false) := by
  refine ⟨trivial, ?_⟩
  rintro (e | _) ⟨s₁, _⟩ ⟨hcreate, rfl⟩
  · exact ⟨trivial, fun _ => ⟨⟨e, rfl⟩, Fs.files_of_leaves leaves_create hcreate⟩⟩
  have hfile : s₁.files path = s.files path := Fs.files_of_leaves leaves_create hcreate
  refine ⟨trivial, ?_⟩
  rintro (e | _) ⟨s₂, _⟩ ⟨hwrite, rfl⟩
  · have hfile := (Fs.files_of_leaves (leaves_writeAll _) hwrite).trans hfile
    exact ⟨trivial, fun _ => ⟨⟨e, rfl⟩, hfile⟩⟩
  have hfile := (Fs.files_of_leaves (leaves_writeAll _) hwrite).trans hfile
  refine ⟨trivial, ?_⟩
  rintro (e | _) ⟨s₃, _⟩ ⟨hsync, rfl⟩
  · cases hsync
    exact ⟨trivial, fun _ => ⟨⟨e, rfl⟩, hfile⟩⟩
  cases hsync
  refine ⟨trivial, ?_⟩
  rintro (e | _) ⟨s₄, _⟩ ⟨hrename, rfl⟩
  · cases hrename
    exact ⟨trivial, fun _ => ⟨⟨e, rfl⟩, hfile⟩⟩
  refine ⟨trivial, ?_⟩
  rintro (e | _) ⟨_, _⟩ ⟨-, rfl⟩
  · exact ⟨trivial, nofun⟩
  · exact ⟨trivial, nofun⟩

theorem safe_marked_replace (next : RoomTable) (result : α) :
    Safe marked (fun _ => True) (Unchanged rooms s fun r => ∃ e, r = .error e)
      (replace codec rooms next result) (s, false) := by
  refine (safe_persist next).bind ?_
  rintro (e | _) s' - hpersist
  · exact ⟨trivial, fun hmark => ⟨⟨e, rfl⟩, rfl, (hpersist hmark).2⟩⟩
  · refine ⟨trivial, fun hmark => ?_⟩
    obtain ⟨e, he⟩ := (hpersist hmark).1
    cases he

theorem safe_marked_done {IsError : α → Prop} (out : α × RoomTable) :
    Safe marked (fun _ => True) (Unchanged rooms s IsError) (done out) (s, false) :=
  ⟨trivial, nofun⟩

theorem safe_marked_answer (made : RegistryCall) :
    Safe marked (fun _ => True) (Unchanged rooms s RegistryAnswer.IsError)
      (answer codec rooms made) (s, false) := by
  have hanswer : ∀ {α : Type} {p : FsProgram Unit (Except IoError α × RoomTable)}
      (toAnswer : Except IoError α → RegistryAnswer),
      Safe marked (fun _ => True) (Unchanged rooms s fun r => ∃ e, r = .error e) p (s, false) →
      (∀ e, (toAnswer (.error e)).IsError) →
      Safe marked (fun _ => True) (Unchanged rooms s RegistryAnswer.IsError)
        (p >>= fun out => done (toAnswer out.1, out.2)) (s, false) := by
    intro α p toAnswer hp hto
    refine hp.bind ?_
    rintro ⟨result, next⟩ s' - hout
    refine ⟨trivial, fun hmark => ?_⟩
    obtain ⟨⟨e, he⟩, hnext, hfile⟩ := hout hmark
    cases he
    exact ⟨hto e, hnext, hfile⟩
  cases made with
  | lookupMembers roomId => exact safe_marked_done _
  | commitRoom roomId a b createdAtMs =>
    refine hanswer RegistryAnswer.committed ?_ fun e => ⟨e, rfl⟩
    unfold commitRoom
    split
    · exact safe_marked_done _
    · exact safe_marked_done _
    · exact safe_marked_replace _ _
  | activateOnFirstJoin roomId memberFp activatedAtMs =>
    refine hanswer RegistryAnswer.activated ?_ fun e => ⟨e, rfl⟩
    unfold activateOnFirstJoin
    split
    · exact safe_marked_done _
    · split
      · exact safe_marked_done _
      · exact safe_marked_replace _ _
  | pruneUnactivated cutoffMs =>
    refine hanswer RegistryAnswer.pruned ?_ fun e => ⟨e, rfl⟩
    unfold pruneUnactivated
    dsimp only
    split
    · exact safe_marked_replace _ _
    · exact safe_marked_done _

def Proper (rooms : RoomTable) : Prop :=
  HashMap.size rooms ≤ registryMaxRooms ∧ ∀ roomId record, rooms.lookup roomId = some record →
    ∃ a b, record.members.toList = [a, b] ∧ a < b ∧ isFingerprint a = true ∧
      isFingerprint b = true

theorem proper_of_valid (h : Valid rooms) : Proper rooms :=
  ⟨h.size_le, fun _ record _ => ⟨record.members.first, record.members.second, rfl,
    record.members.first_lt_second, record.members.isFingerprint_first,
    record.members.isFingerprint_second⟩⟩

/-- However often it is opened again, the registry on disk answers like the one in memory,
and a call whose write fails before the renaming changes nothing. -/
theorem refines_inMemory (codec : RegistryCodec) :
    (∀ steps s, s.files path = none →
      Total Fs.succeed (fun outcome _ => ∃ rooms,
          outcome = .ok ((InMemoryRegistry.answers ∅ steps).1, rooms) ∧ Proper rooms ∧
          Proper (InMemoryRegistry.answers ∅ steps).2)
        (session codec steps) s) ∧
    ∀ made rooms s out s', Exec marked (answer codec rooms made) (s, false) out (s', true) →
      out.1.IsError ∧ out.2 = rooms ∧ s'.files path = s.files path := by
  constructor
  · intro steps s hs
    refine (Refines.empty hs).openRegistry.bind ?_
    rintro _ s₁ ⟨rooms, rfl, hopen⟩
    refine (hopen.answers steps).mono ?_
    rintro _ s₂ ⟨next, rfl, hnext⟩
    exact ⟨next, rfl, proper_of_valid (hnext.valid.of_same hnext.same),
      proper_of_valid hnext.valid⟩
  · intro made rooms s out s' hexec
    exact (safe_marked_answer made).post hexec rfl

def sampleFp (c : Char) : String := String.ofList (List.replicate 64 c)

def sampleRegistryRoom : String := String.ofList (List.replicate 32 'a')

def sampleCommit : RegistryCall := .commitRoom sampleRegistryRoom (sampleFp 'b') (sampleFp 'a') 1

theorem sampleCommit_answers :
    (InMemoryRegistry.answers ∅ [.call sampleCommit, .reopen,
        .call (.lookupMembers sampleRegistryRoom)]).1 =
      [.committed (.ok .created), .members [sampleFp 'a', sampleFp 'b']] := by
  decide +kernel

theorem exec_sampleCommit (codec : RegistryCodec) (s : Fs Unit) :
    Exec marked (answer codec ∅ sampleCommit) (s, false)
      (.committed (.error (.other "no space left on device")), ∅) (s, true) := by
  have hcreated : (InMemoryRegistry.commitRoom ∅ sampleRegistryRoom (sampleFp 'b')
      (sampleFp 'a') 1).1 = .ok .created :=
    RegistryAnswer.committed.inj (List.cons.inj sampleCommit_answers).1
  have hfull : marked (.create tempPath) (s, false) (.error (.other "no space left on device"))
      (s, true) := ⟨rfl, rfl⟩
  rw [sampleCommit, answer, commitRoom]
  unfold InMemoryRegistry.commitRoom at hcreated
  split at hcreated
  · cases hcreated
  · rename_i commit next hcommit
    cases hcreated
    rw [hcommit]
    exact .call hfull (.done _ _)

/-- The members of a room are found after a restart, and a commit on a full disk fails. -/
theorem refines_inMemory_sample :
    (∃ rooms s', Exec Fs.succeed
        (session (.standard fun _ => "") [.call sampleCommit, .reopen,
          .call (.lookupMembers sampleRegistryRoom)]) ⟨fun _ => none, fun _ => []⟩
        (.ok ([.committed (.ok .created), .members [sampleFp 'a', sampleFp 'b']], rooms)) s' ∧
      Proper rooms) ∧
    RegistryAnswer.IsError (.committed (.error (.other "no space left on device"))) := by
  obtain ⟨hrun, hfail⟩ := refines_inMemory (.standard fun _ => "")
  obtain ⟨_, s', hexec, rooms, rfl, hproper, -⟩ := (hrun [.call sampleCommit, .reopen,
    .call (.lookupMembers sampleRegistryRoom)] ⟨fun _ => none, fun _ => []⟩ rfl).exists_exec
  rw [sampleCommit_answers] at hexec
  exact ⟨⟨rooms, s', hexec, hproper⟩,
    (hfail sampleCommit ∅ ⟨fun _ => none, fun _ => []⟩ _ _ (exec_sampleCommit _ _)).1⟩

end PersistentRegistry

end ClipSync
