import ClipSync.Core.Serde
import ClipSync.Core.Session

/-!
# The persisted files of an endpoint in JSON

The lines of the history and the session file, as the derived serializers write and
read them. Reading what was written gives it back.
-/

namespace ClipSync

open Lib Lib.Json

namespace HistorySource

def name : HistorySource → String
  | .local' => "local"
  | .remote => "remote"
  | .remoteDeferred => "remote_deferred"

def fromName : String → Option HistorySource
  | "local" => some .local'
  | "remote" => some .remote
  | "remote_deferred" => some .remoteDeferred
  | _ => none

theorem fromName_name (source : HistorySource) : fromName source.name = some source := by
  cases source <;> rfl

end HistorySource

def asUuid (value : Value) : Option Uuid := (asStr value).bind Uuid.parseStr

@[simp]
theorem asUuid_str (id : Uuid) : asUuid (.str id.toText) = some id := by
  rw [asUuid, asStr, Option.bind_some, Uuid.parseStr_toText]

def asSource (value : Value) : Option HistorySource := (asStr value).bind HistorySource.fromName

@[simp]
theorem asSource_str (source : HistorySource) : asSource (.str source.name) = some source := by
  rw [asSource, asStr, Option.bind_some, source.fromName_name]

/-! ## History lines -/

namespace HistoryKind

def toJson : HistoryKind → Value
  | .text content => .obj [("type", .str "text"), ("content", .str content)]
  | .image fileName => .obj [("type", .str "image"), ("file_name", .str fileName)]

def fromJson (value : Value) : Option HistoryKind := do
  match ← tagged "type" value with
  | ("text", value) =>
    match ← record ["content"] (known ["content"] value) with
    | [content] => some (.text (← asStr content))
    | _ => none
  | ("image", value) =>
    match ← record ["file_name"] (known ["file_name"] value) with
    | [fileName] => some (.image (← asStr fileName))
    | _ => none
  | _ => none

@[simp]
theorem fromJson_toJson (kind : HistoryKind) : fromJson kind.toJson = some kind := by
  cases kind <;> simp [fromJson, toJson, tagged_obj, record, known, asStr]

@[simp]
theorem integral_toJson (kind : HistoryKind) : Integral kind.toJson := by
  cases kind <;> simp [toJson]

end HistoryKind

namespace HistoryItem

def toJson (item : HistoryItem) : Value :=
  .obj [("id", .str item.id.toText), ("ts_ms", .int item.tsMs.toInt),
    ("kind", item.kind.toJson), ("source", .str item.source.name)]

def fromJson (value : Value) : Option HistoryItem := do
  match ← record ["id", "ts_ms", "kind", "source"]
      (known ["id", "ts_ms", "kind", "source"] value) with
  | [id, tsMs, kind, source] =>
    some ⟨← asUuid id, ← asI64 tsMs, ← HistoryKind.fromJson kind, ← asSource source⟩
  | _ => none

theorem fromJson_toJson (item : HistoryItem) : fromJson item.toJson = some item := by
  simp [fromJson, toJson, record, known, List.lookup_cons]

theorem integral_toJson (item : HistoryItem) : Integral item.toJson := by
  simp [toJson]

end HistoryItem

/-- Compact JSON, one object a line. -/
def historyLine (item : HistoryItem) : Bytes := toBytes .compact item.toJson

def readHistoryLine (line : Bytes) : Option HistoryItem :=
  (fromBytes line).bind HistoryItem.fromJson

theorem readHistoryLine_historyLine (item : HistoryItem) :
    readHistoryLine (historyLine item) = some item := by
  rw [readHistoryLine, historyLine, fromBytes_printed _ item.integral_toJson, Option.bind_some,
    item.fromJson_toJson]

theorem historyLine_ne_nil (item : HistoryItem) : historyLine item ≠ [] := by
  rw [historyLine, toBytes, utf8Bytes_ofList, HistoryItem.toJson, print, List.flatMap_cons]
  simp [String.utf8EncodeChar]

def LineCodec.standard : LineCodec where
  toLine := historyLine
  fromLine := readHistoryLine
  fromLine_toLine := readHistoryLine_historyLine
  newline_notMem item := newline_notMem_toBytes item.integral_toJson
  toLine_ne_nil := historyLine_ne_nil

/-! ## The session file -/

namespace ClipContent

def toJson : ClipContent → Value
  | .text content => .obj [("type", .str "text"), ("content", .str content)]
  | .image bytes => .obj [("type", .str "image"), ("bytes_b64", .str (Base64.encode bytes))]

def decodeImage (bytesB64 : String) : Option ClipContent := do
  let decoded ← Base64.decode bytesB64
  if Base64.encode decoded ≠ bytesB64 then none else some (.image decoded)

def fromJson (value : Value) : Option ClipContent := do
  match ← tagged "type" value with
  | ("text", value) =>
    match ← record ["content"] value with
    | [content] => some (.text (← asStr content))
    | _ => none
  | ("image", value) =>
    match ← record ["bytes_b64"] value with
    | [bytesB64] => decodeImage (← asStr bytesB64)
    | _ => none
  | _ => none

@[simp]
theorem fromJson_toJson (content : ClipContent) : fromJson content.toJson = some content := by
  cases content <;> simp [fromJson, toJson, tagged_obj, record, asStr, decodeImage]

@[simp]
theorem integral_toJson (content : ClipContent) : Integral content.toJson := by
  cases content <;> simp [toJson]

end ClipContent

namespace PendingItem

def toJson (item : PendingItem) : Value :=
  .obj [("id", .str item.id.toText), ("ts_ms", .int item.tsMs.toInt),
    ("source", .str item.source.name), ("content", item.content.toJson)]

def fromJson (value : Value) : Option PendingItem := do
  match ← record ["id", "ts_ms", "source", "content"] value with
  | [id, tsMs, source, content] =>
    some ⟨← asUuid id, ← asI64 tsMs, ← asSource source, ← ClipContent.fromJson content⟩
  | _ => none

theorem fromJson_toJson (item : PendingItem) : fromJson item.toJson = some item := by
  simp [fromJson, toJson, record, List.lookup_cons]

theorem integral_toJson (item : PendingItem) : Integral item.toJson := by
  simp [toJson]

end PendingItem

namespace DirectionState

def toJson (state : DirectionState) : Value :=
  .obj [("identity_generation", .int state.identityGeneration.toNat),
    ("next_seq", .int state.nextSeq.toNat), ("last_seq", .int state.lastSeq.toNat),
    ("seen_ids", .arr (state.seenIds.map .str)),
    ("pending_history", .arr (state.pendingHistory.map PendingItem.toJson))]

def fromJson (value : Value) : Option DirectionState := do
  match ← record ["identity_generation", "next_seq", "last_seq", "seen_ids", "pending_history"]
      value with
  | [generation, nextSeq, lastSeq, seenIds, pendingHistory] =>
    some ⟨← asU64 generation, ← asU64 nextSeq, ← asU64 lastSeq, ← asList asStr seenIds,
      ← asList PendingItem.fromJson pendingHistory⟩
  | _ => none

theorem fromJson_toJson (state : DirectionState) : fromJson state.toJson = some state := by
  simp [fromJson, toJson, record, List.lookup_cons, asList_map PendingItem.fromJson_toJson]

theorem integral_toJson (state : DirectionState) : Integral state.toJson := by
  simp [toJson, integralItems_map PendingItem.integral_toJson]

end DirectionState

namespace SessionDocument

def toJson (document : SessionDocument) : Value :=
  .obj [("directions",
    .obj (document.directions.sorted.map fun m => (m.1, DirectionState.toJson m.2)))]

/-- A document without directions is empty. -/
def fromJson (value : Value) : Option SessionDocument := do
  match known ["directions"] value with
  | .obj [] => some ⟨∅⟩
  | value =>
    match ← record ["directions"] value with
    | [directions] =>
      some ⟨.ofList (← asMembers DirectionState.fromJson directions)⟩
    | _ => none

theorem fromJson_toJson (document : SessionDocument) :
    fromJson document.toJson = some document := by
  simp [fromJson, toJson, known, record, List.lookup_cons,
    asMembers_map DirectionState.fromJson_toJson, HashMap.ofList_sorted]

theorem integral_toJson (document : SessionDocument) : Integral document.toJson := by
  simp [toJson, integralMembers_map DirectionState.integral_toJson]

def toVec (document : SessionDocument) : Bytes := toBytes .compact document.toJson

def fromSlice (jsonError : Bytes → String) (bytes : Bytes) : Except String SessionDocument :=
  ((fromBytes bytes).bind fromJson).elim (.error (jsonError bytes)) .ok

theorem fromSlice_toVec (jsonError : Bytes → String) (document : SessionDocument) :
    fromSlice jsonError document.toVec = .ok document := by
  rw [fromSlice, toVec, fromBytes_printed _ document.integral_toJson, Option.bind_some,
    document.fromJson_toJson]
  rfl

end SessionDocument

/-- The standard reading of the session file. The wording of errors is left open. -/
def DocumentCodec.standard (jsonError : Bytes → String) : DocumentCodec where
  toVec := SessionDocument.toVec
  fromSlice := SessionDocument.fromSlice jsonError
  fromSlice_toVec := SessionDocument.fromSlice_toVec jsonError

end ClipSync
