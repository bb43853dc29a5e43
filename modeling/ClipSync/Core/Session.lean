import ClipSync.Core.History
import ClipSync.Core.Pairing
import ClipSync.Lib.HashMap

/-!
# Clipboard sessions

`crates/core/src/session.rs`: the durable state of the two directions of a pair, and
the calls of a session with one peer. A call is a program over the accesses of
`SessionOp`; as in the source, a sequence number is reserved on disk before it is
sealed, and a received clip goes through two transactions and the history before the
clipboard callback.

Arithmetic on timestamps wraps, as in release builds.
-/

namespace ClipSync

open Lib Program FsProgram

def seenIdsRing : ℕ := 64

def liveFreshWindowMs : Int64 := 5 * 60 * 1000

def liveFutureSkewMs : Int64 := 2 * 60 * 1000

def maxImageBytes : ℕ := 10 * 1024 * 1024

def echoRing : ℕ := 64

/-- Clipboard payload carried inside an encrypted envelope. -/
inductive ClipContent where
  | text (content : String)
  | image (bytes : Bytes)
deriving DecidableEq

/-- One authenticated clipboard item. -/
structure ClipItem where
  id : Uuid
  tsMs : Int64
  seq : UInt64
  content : ClipContent
deriving DecidableEq

inductive MailboxDisposition where
  | applied
  | deferred
deriving DecidableEq

inductive CallbackError where
  | rejected (message : String)
  | panicked
deriving DecidableEq

inductive InboundOutcome where
  | liveApplied
  | mailboxApplied
  | mailboxDeferred
  | duplicate
  | replay
  | unauthenticated
deriving DecidableEq

inductive SessionError where
  | recordMismatch
  | crypto (source : CryptoError)
  | protocol (source : ProtocolError)
  | history (source : HistoryError)
  | io (source : IoError)
  | json (message : String)
  | callback (source : CallbackError)
  | injectedFault
deriving DecidableEq

/-- An entry replayed into the history on restart. -/
structure PendingItem where
  id : Uuid
  tsMs : Int64
  source : HistorySource
  content : ClipContent
deriving DecidableEq

/-- Durable state of one direction. `nextSeq` is meaningful to the sender, the rest
to the receiver. -/
structure DirectionState where
  identityGeneration : UInt64
  nextSeq : UInt64
  lastSeq : UInt64
  seenIds : List String
  pendingHistory : List PendingItem
deriving DecidableEq

def DirectionState.new (identityGeneration : UInt64) : DirectionState :=
  ⟨identityGeneration, 1, 0, [], []⟩

structure SessionDocument where
  directions : HashMap String DirectionState

/-- The JSON of the session file: a written document is read back. -/
structure DocumentCodec where
  toVec : SessionDocument → Bytes
  fromSlice : Bytes → Except String SessionDocument
  fromSlice_toVec : ∀ document, fromSlice (toVec document) = .ok document

/-- The third-party code that a session is built on. -/
structure Crates where
  prim : Primitives
  wire : Codec
  lines : LineCodec
  documents : DocumentCodec

/-! ## The session file -/

namespace SessionStore

variable (crates : Crates)

def sessionFile : Path Dir := ⟨.session, "session.json"⟩

def new : FsProgram Dir (Except SessionError Unit) := do
  return (← access (.createDirAll .session)).mapError .io

def loadDocument : FsProgram Dir (Except SessionError SessionDocument) := do
  match ← access (.read sessionFile) with
  | .ok bytes => return (crates.documents.fromSlice bytes).mapError .json
  | .error .notFound => return .ok ⟨∅⟩
  | .error error => return .error (.io error)

def tempFile (name : String) : Path Dir := ⟨.session, ".session.json." ++ name ++ ".tmp"⟩

def atomicWrite (path : Path Dir) (contents : Bytes) :
    FsProgram Dir (Except SessionError Unit) := do
  let name ← access .uniqueName
  let written ← FsProgram.atomicWrite ⟨true, true, true⟩ (tempFile name) path contents
  return written.mapError fun (_, error) => .io error

/-- Persists one direction and leaves every other one untouched. -/
def commitDirection (key : String) (state : DirectionState)
    (extra : Option (String × DirectionState)) : FsProgram Dir (Except SessionError Unit) := do
  match ← loadDocument crates with
  | .error error => return .error error
  | .ok document =>
  let directions := document.directions.insert key state
  let directions := match extra with
    | some (extraKey, extraState) => directions.insert extraKey extraState
    | none => directions
  atomicWrite sessionFile (crates.documents.toVec ⟨directions⟩)

/-- A stored state counts in its own generation only. -/
def ofGeneration (generation : UInt64) : Option DirectionState → DirectionState
  | some state => if state.identityGeneration = generation then state else .new generation
  | none => .new generation

def loadDirection (key : String) (generation : UInt64) :
    FsProgram Dir (Except SessionError DirectionState) := do
  match ← loadDocument crates with
  | .error error => return .error error
  | .ok document => return .ok (ofGeneration generation (document.directions.lookup key))

end SessionStore

def directionKey (roomId senderFp receiverFp : String) : String :=
  roomId ++ ":" ++ senderFp ++ ":" ++ receiverFp

/-! ## The accesses of a session -/

inductive SendStage where
  | seqReserved
deriving DecidableEq

inductive ReceiveStage where
  | deliveryCommitted
  | historyAdded
  | pendingCleared
  | mailboxApplied
  | sourcePromoted
deriving DecidableEq

/-- What a session does besides computing. `sealMessage` draws the nonce and seals, and
its envelope is only recorded; `callback` is the shell's callback, panics caught; and
`reached` does nothing but mark a stage of a delivery. -/
inductive SessionOp where
  | fs (op : FsOp Dir)
  | newV4
  | sealMessage (envelope : Envelope) (key : Key) (associated encoded : Bytes)
  | callback (item : ClipItem) (mailbox : Bool)
  | reached (stage : ReceiveStage) (id : Uuid)

abbrev SessionOp.Res : SessionOp → Type
  | .fs op => op.Res
  | .newV4 => Uuid
  | .sealMessage .. => Except CryptoError Bytes
  | .callback .. => Except CallbackError MailboxDisposition
  | .reached .. => Unit

abbrev SessionProgram := Program SessionOp SessionOp.Res

namespace SessionProgram

/-- A program that only accesses files. -/
def files {α : Type} (p : FsProgram Dir α) : SessionProgram α :=
  p.lift fun op => perform (.fs op : SessionOp)

def newV4 : SessionProgram Uuid := perform (.newV4 : SessionOp)

def sealMessage (envelope : Envelope) (key : Key) (associated encoded : Bytes) :
    SessionProgram (Except CryptoError Bytes) :=
  perform (.sealMessage envelope key associated encoded : SessionOp)

def invokeCallback (item : ClipItem) (mailbox : Bool) :
    SessionProgram (Except CallbackError MailboxDisposition) :=
  perform (.callback item mailbox : SessionOp)

/-- Whether a fault is injected after the stage. -/
def checkpoint (failAt : Option ReceiveStage) (stage : ReceiveStage) (id : Uuid) :
    SessionProgram Bool := do
  let () ← perform (.reached stage id : SessionOp)
  return failAt = some stage

end SessionProgram

/-! ## The session -/

def textHash (prim : Primitives) (content : String) : String :=
  hexLower (prim.sha256 (utf8Bytes content)).toList

def historyContent : ClipContent → HistoryContent
  | .text text => .text text
  | .image bytes => .image bytes

def PendingItem.newHistoryItem (pending : PendingItem) : NewHistoryItem :=
  ⟨pending.id, pending.tsMs, pending.source, historyContent pending.content⟩

/-- One end-to-end encrypted session with a single paired peer. -/
structure Session where
  roomId : String
  selfFp : String
  peerFp : String
  keys : SessionKeys
  sendKey : String
  recvKey : String
  sendState : DirectionState
  recvState : DirectionState
  history : HistoryStore
  echoHashes : List String

namespace Session

open SessionProgram SessionStore

variable (crates : Crates)

/-- Adds the pending entries to the history. -/
def replay (history : HistoryStore) :
    List PendingItem → FsProgram Dir (Except SessionError HistoryStore)
  | [] => return .ok history
  | pending :: rest => do
    match ← history.add crates.lines pending.newHistoryItem with
    | (.error error, _) => return .error (.history error)
    | (.ok (), history) => replay history rest

/-- The pending entries are added to the history, then cleared on disk. -/
def recover (history : HistoryStore) (recvKey : String) (recvState : DirectionState) :
    FsProgram Dir (Except SessionError (HistoryStore × DirectionState)) := do
  if recvState.pendingHistory.isEmpty then
    return .ok (history, recvState)
  match ← replay crates history recvState.pendingHistory with
  | .error error => return .error error
  | .ok history =>
  let recvState := { recvState with pendingHistory := [] }
  match ← commitDirection crates recvKey recvState none with
  | .error error => return .error error
  | .ok () => return .ok (history, recvState)

def new (identity : Identity) (record : PairingRecord) (history : HistoryStore) :
    FsProgram Dir (Except SessionError Session) := do
  let generation := identity.generation
  if record.identityGeneration ≠ generation ∨
      record.localBundleFp ≠ identity.bundleFp crates.prim ∨
      record.localBundleFp = record.peerBundleFp then
    return .error .recordMismatch
  match identity.sessionKeys crates.prim record.peerBundle with
  | .error error => return .error (.crypto error)
  | .ok keys =>
  let selfFp := record.localBundleFp
  let peerFp := record.peerBundleFp
  let sendKey := directionKey record.roomId selfFp peerFp
  let recvKey := directionKey record.roomId peerFp selfFp
  match ← loadDirection crates sendKey generation with
  | .error error => return .error error
  | .ok sendState =>
  match ← loadDirection crates recvKey generation with
  | .error error => return .error error
  | .ok recvState =>
  match ← recover crates history recvKey recvState with
  | .error error => return .error error
  | .ok (history, recvState) =>
  return .ok {
    roomId := record.roomId, selfFp, peerFp, keys, sendKey, recvKey, sendState, recvState,
    history, echoHashes := [] }

/-- Opening a session over the directories of an endpoint. -/
def openSession (identity : Identity) (record : PairingRecord) :
    FsProgram Dir (Except SessionError Session) := do
  match ← SessionStore.new with
  | .error error => return .error error
  | .ok () =>
  match ← HistoryStore.new crates.lines with
  | .error error => return .error (.history error)
  | .ok history => Session.new crates identity record history

def isEcho (self : Session) (hash : String) : Bool := self.echoHashes.contains hash

def registerEcho (self : Session) (hash : String) : Session :=
  if self.echoHashes.contains hash then self
  else
    let echoHashes := self.echoHashes ++ [hash]
    { self with echoHashes := echoHashes.drop (echoHashes.length - echoRing) }

/-- Registers the hash of a text. -/
def registerText (self : Session) : ClipContent → Session
  | .text text => self.registerEcho (textHash crates.prim text)
  | .image _ => self

theorem registerText_eq (self : Session) (content : ClipContent) :
    ∃ hashes, self.registerText crates content = { self with echoHashes := hashes } := by
  unfold registerText registerEcho
  split
  · split
    · exact ⟨_, rfl⟩
    · exact ⟨_, rfl⟩
  · exact ⟨_, rfl⟩

/-! ## Sending -/

/-- The envelope of a content. -/
def envelope (content : ClipContent) (itemId : Uuid) (seq : UInt64) (tsMs : Int64) : Envelope :=
  let (kind, raw) := match content with
    | .text text => (ContentKind.text, utf8Bytes text)
    | .image bytes => (ContentKind.image, bytes)
  ⟨protocolVersion, kind, itemId.toText, seq, tsMs, Base64.encode raw⟩

/-- Seals a content under a reserved sequence number and builds the frame. -/
def sealClip (self : Session) (content : ClipContent) (tsMs : Int64) (seq : UInt64) :
    SessionProgram (Except SessionError Frame × Session) := do
  let itemId ← newV4
  let envelope := envelope content itemId seq tsMs
  match encodeEnvelope crates.wire envelope with
  | .error error => return (.error (.protocol error), self)
  | .ok encoded =>
  let associated := aad self.roomId self.selfFp self.peerFp
  match ← sealMessage envelope self.keys.send associated encoded with
  | .error error => return (.error (.crypto error), self)
  | .ok bytes =>
  match ← files (self.history.add crates.lines
      ⟨itemId, tsMs, .local', historyContent content⟩) with
  | (.error error, history) => return (.error (.history error), { self with history })
  | (.ok (), history) =>
  return (.ok (.clip self.roomId (Base64.encode bytes) "" false),
    { self with history }.registerText crates content)

def oversizeImage : ClipContent → Option ProtocolError
  | .text _ => none
  | .image bytes =>
    if bytes.length > maxImageBytes then some (.oversize bytes.length maxImageBytes) else none

def sendClipWithFault (self : Session) (content : ClipContent) (tsMs : Int64)
    (failAt : Option SendStage) : SessionProgram (Except SessionError Frame × Session) := do
  match oversizeImage content with
  | some error => return (.error (.protocol error), self)
  | none =>
  let seq := self.sendState.nextSeq
  if seq.toNat + 1 = UInt64.size then
    return (.error .recordMismatch, self)
  let reserved := { self.sendState with nextSeq := seq + 1 }
  match ← files (commitDirection crates self.sendKey reserved none) with
  | .error error => return (.error error, self)
  | .ok () =>
  let self := { self with sendState := reserved }
  if failAt = some .seqReserved then
    return (.error .injectedFault, self)
  self.sealClip crates content tsMs seq

def sendClip (self : Session) (content : ClipContent) (tsMs : Int64) :
    SessionProgram (Except SessionError Frame × Session) :=
  self.sendClipWithFault crates content tsMs none

/-! ## Receiving -/

/-- The content an envelope carries. -/
def contentOf (envelope : Envelope) : Option ClipContent := do
  let raw ← Base64.decode envelope.contentB64
  match envelope.kind with
  | .text => some (.text (← fromUtf8 raw))
  | .image => some (.image raw)

def authenticate (self : Session) (roomId ciphertextB64 : String) : Option ClipItem := do
  if roomId ≠ self.roomId then none
  else
    let bytes ← Base64.decode ciphertextB64
    let associated := aad self.roomId self.peerFp self.selfFp
    let plaintext ← (openSealed crates.prim self.keys.recv associated bytes).toOption
    let envelope ← (decodeEnvelope crates.wire plaintext).toOption
    let id ← Uuid.parseStr envelope.itemId
    let content ← contentOf envelope
    some ⟨id, envelope.tsMs, envelope.seq, content⟩

def isFresh (item : ClipItem) (mailbox : Bool) (nowMs : Int64) : Bool :=
  !mailbox && nowMs - liveFreshWindowMs ≤ item.tsMs && item.tsMs ≤ nowMs + liveFutureSkewMs

def sourceOf (fresh : Bool) : HistorySource := if fresh then .remote else .remoteDeferred

/-- The state with an item delivered and pending. -/
def delivered (state : DirectionState) (item : ClipItem) (source : HistorySource) :
    DirectionState :=
  let seenIds := state.seenIds ++ [item.id.toText]
  { state with
    lastSeq := max state.lastSeq item.seq
    seenIds := seenIds.drop (seenIds.length - seenIdsRing)
    pendingHistory := state.pendingHistory ++ [⟨item.id, item.tsMs, source, item.content⟩] }

/-- The state with the pending entries of an item dropped. -/
def cleared (state : DirectionState) (id : Uuid) : DirectionState :=
  { state with pendingHistory := state.pendingHistory.filter fun pending => pending.id ≠ id }

/-- The callback of a clip that has been delivered and recorded. -/
def applyClip (self : Session) (item : ClipItem) (fresh : Bool) (failAt : Option ReceiveStage) :
    SessionProgram (Except SessionError InboundOutcome × Session) := do
  if fresh then
    match ← invokeCallback item false with
    | .error error => return (.error (.callback error), self)
    | .ok _ => return (.ok .liveApplied, self.registerText crates item.content)
  else
    match ← invokeCallback item true with
    | .error error => return (.error (.callback error), self)
    | .ok .deferred => return (.ok .mailboxDeferred, self)
    | .ok .applied =>
      if ← checkpoint failAt .mailboxApplied item.id then
        return (.error .injectedFault, self)
      match ← files (self.history.setSource crates.lines item.id .remote) with
      | (.error error, history) => return (.error (.history error), { self with history })
      | (.ok (), history) =>
        let self := { self with history }
        if ← checkpoint failAt .sourcePromoted item.id then
          return (.error .injectedFault, self)
        return (.ok .mailboxApplied, self.registerText crates item.content)

/-- The history entry and the second transaction of a delivered clip. -/
def recordClip (self : Session) (item : ClipItem) (fresh : Bool) (failAt : Option ReceiveStage) :
    SessionProgram (Except SessionError InboundOutcome × Session) := do
  match ← files (self.history.add crates.lines
      ⟨item.id, item.tsMs, sourceOf fresh, historyContent item.content⟩) with
  | (.error error, history) => return (.error (.history error), { self with history })
  | (.ok (), history) =>
  let self := { self with history }
  if ← checkpoint failAt .historyAdded item.id then
    return (.error .injectedFault, self)
  let cleared := cleared self.recvState item.id
  match ← files (commitDirection crates self.recvKey cleared none) with
  | .error error => return (.error error, self)
  | .ok () =>
  let self := { self with recvState := cleared }
  if ← checkpoint failAt .pendingCleared item.id then
    return (.error .injectedFault, self)
  self.applyClip crates item fresh failAt

/-- The first transaction of an accepted clip. -/
def deliverClip (self : Session) (item : ClipItem) (fresh : Bool) (failAt : Option ReceiveStage) :
    SessionProgram (Except SessionError InboundOutcome × Session) := do
  let committed := delivered self.recvState item (sourceOf fresh)
  match ← files (commitDirection crates self.recvKey committed none) with
  | .error error => return (.error error, self)
  | .ok () =>
  let self := { self with recvState := committed }
  if ← checkpoint failAt .deliveryCommitted item.id then
    return (.error .injectedFault, self)
  self.recordClip crates item fresh failAt

def handleClipWithFault (self : Session) (roomId ciphertextB64 : String) (mailbox : Bool)
    (nowMs : Int64) (failAt : Option ReceiveStage) :
    SessionProgram (Except SessionError InboundOutcome × Session) :=
  match self.authenticate crates roomId ciphertextB64 with
  | none => return (.ok .unauthenticated, self)
  | some item =>
    if self.recvState.seenIds.contains item.id.toText then return (.ok .duplicate, self)
    else if item.seq ≤ self.recvState.lastSeq then return (.ok .replay, self)
    else self.deliverClip crates item (isFresh item mailbox nowMs) failAt

def handleClip (self : Session) (roomId ciphertextB64 : String) (mailbox : Bool)
    (nowMs : Int64) : SessionProgram (Except SessionError InboundOutcome × Session) :=
  self.handleClipWithFault crates roomId ciphertextB64 mailbox nowMs none

/-! ## The history of a session -/

def applyDeferred (self : Session) (id : Uuid) :
    SessionProgram (Except SessionError Unit × Session) := do
  match ← files (self.history.setSource crates.lines id .remote) with
  | (.error error, history) => return (.error (.history error), { self with history })
  | (.ok (), history) =>
    let self := { self with history }
    match self.history.items.find? (·.id = id) with
    | some ⟨_, _, .text content, _⟩ =>
      return (.ok (), self.registerEcho (textHash crates.prim content))
    | _ => return (.ok (), self)

def clearHistory (self : Session) : SessionProgram (Except SessionError Unit × Session) := do
  let (result, history) ← files (self.history.clear crates.lines)
  return (result.mapError .history, { self with history })

end Session

end ClipSync
