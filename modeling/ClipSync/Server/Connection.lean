import ClipSync.Core.Binding
import ClipSync.Server.Pairing
import ClipSync.Server.Rooms

/-!
# Connections

`crates/server/src/connection.rs` with the rate limiter of `ratelimit.rs`. A connection
has a reader, which takes the frames of its client through the phases before hello,
before join and after join, and a writer, which empties its outbox into the socket. All
shared parts of the relay are reached through single accesses, so the functions of the
other modules are translated into programs over these.
-/

namespace ClipSync

open Lib Program

/-! ## Rate limits -/

/-- Durations are in milliseconds. -/
structure Limits where
  outboxMaxFrames : ℕ := 64
  outboxMaxBytes : ℕ := 48 * 1024 * 1024
  inboxMaxEvents : ℕ := 64
  inboxMaxBytes : ℕ := 48 * 1024 * 1024
  joinAttemptsPerMinute : UInt32 := 5
  bytesPerMinute : UInt64 := 64 * 1024 * 1024
  rateWindow : ℕ := 60 * 1000

structure Window where
  started : ℕ
  joins : UInt32
  bytes : UInt64

abbrev Windows := HashMap IpAddr Window

namespace IpRateLimiter

variable (limits : Limits) (windows : Windows) (ip : IpAddr) (now : ℕ)

/-- The window in which an address is counted, a new one if the last has passed. -/
def window : Window :=
  let entry := (windows.lookup ip).getD ⟨now, 0, 0⟩
  if now - entry.started ≥ limits.rateWindow then ⟨now, 0, 0⟩ else entry

/-- Counts one join attempt; true if it is within the budget. -/
def checkJoin : Bool × Windows :=
  let entry := window limits windows ip now
  let entry := { entry with joins := entry.joins + 1 }
  (decide (entry.joins ≤ limits.joinAttemptsPerMinute), windows.insert ip entry)

/-- Counts octets; true if they are within the budget. -/
def addBytes (bytes : ℕ) : Bool × Windows :=
  let entry := window limits windows ip now
  let total := min (entry.bytes.toNat + bytes) (2 ^ 64 - 1)
  (decide (total ≤ limits.bytesPerMinute.toNat),
    windows.insert ip { entry with bytes := UInt64.ofNat total })

end IpRateLimiter

/-! ## The signature of a join -/

/-- Text that decodes to the 64 octets of a signature. -/
def decodeSignature (sigB64 : String) : Option (List.Vector UInt8 64) := do
  let bytes ← Base64.decode sigB64
  if h : bytes.length = 64 then some ⟨bytes, h⟩ else none

/-! ## Accesses -/

/-- A message of the websocket. -/
inductive Message where
  | binary
  | text (text : String)
  | close
  | ping
  | pong

/-- The accesses of the relay's tasks to what they share. `next` gives nothing at the end
of the stream and past a deadline, `recvOutbound` nothing when the writer is aborted.
`lookupMembers` is told who asks and `accept` has no effect of its own: both only matter
to what is remembered of a run. -/
inductive RelayOp where
  | next (connectionId : ConnectionId)
  | accept (connectionId : ConnectionId) (frame : Frame)
  | sinkSend (connectionId : ConnectionId) (frame : Frame)
  | recvOutbound (connectionId : ConnectionId)
  | dropOutbound (connectionId : ConnectionId)
  | outbox (outbox : OutboxHandle) (op : OutboxOp)
  | checkJoin (ip : IpAddr)
  | addBytes (ip : IpAddr) (bytes : ℕ)
  | fillBytes
  | instantNow
  | connectionsInsert (connectionId : ConnectionId) (outbox : OutboxHandle)
  | connectionsRemove (connectionId : ConnectionId)
  | connectionsContains (connectionId : ConnectionId)
  | connectionsGet (connectionId : ConnectionId)
  | pairingLock
  | pairingUnlock (state : PairingState)
  | lookupMembers (roomId fp : String)
  | commitRoom (roomId a b : String)
  | activateOnFirstJoin (roomId memberFp : String)
  | pruneUnactivated (cutoffMs : Int64)
  | rooms (op : RoomsOp)
  | mailbox (op : MailboxOp)

abbrev RelayOp.Res : RelayOp → Type
  | .next _ => Option Message
  | .sinkSend .. | .checkJoin _ | .addBytes .. | .connectionsContains _ => Bool
  | .recvOutbound _ => Option Outbound
  | .outbox _ op => op.Res
  | .fillBytes => Key
  | .instantNow => ℕ
  | .connectionsGet _ => Option OutboxHandle
  | .pairingLock => PairingState
  | .lookupMembers .. => List String
  | .commitRoom .. => Except IoError RegistryCommit
  | .activateOnFirstJoin .. => Except String Bool
  | .pruneUnactivated _ => Except IoError ℕ
  | .rooms op => op.Res
  | .mailbox op => op.Res
  | .accept .. | .dropOutbound _ | .connectionsInsert .. | .connectionsRemove _
  | .pairingUnlock _ => Unit

abbrev RelayProgram := Program RelayOp RelayOp.Res

namespace RelayProgram

def onOutbox {α : Type} (handle : OutboxHandle) (p : OutboxProgram α) : RelayProgram α :=
  p.lift fun op => perform (RelayOp.outbox handle op)

def onMailbox {α : Type} (p : MailboxProgram α) : RelayProgram α :=
  p.lift fun op => perform (RelayOp.mailbox op)

def pairingOp : (op : PairingOp) → RelayProgram op.Res
  | .containsKey connectionId => perform (RelayOp.connectionsContains connectionId)
  | .get connectionId => perform (RelayOp.connectionsGet connectionId)
  | .outbox outbox op => perform (RelayOp.outbox outbox op)
  | .commitRoom roomId a b => perform (RelayOp.commitRoom roomId a b)

def onPairing {α : Type} (p : PairingProgram α) : RelayProgram α := p.lift pairingOp

/-- Delivered clips are retained: `clip_consumed` does nothing. -/
def roomOp : (op : RoomOp) → RelayProgram op.Res
  | .outbox outbox op => perform (RelayOp.outbox outbox op)
  | .clipPending roomId recipientFp clip =>
    onMailbox (PersistentMailbox.clipPending roomId recipientFp clip)
  | .clipConsumed .. => pure ()
  | .activateOnFirstJoin roomId memberFp =>
    perform (RelayOp.activateOnFirstJoin roomId memberFp)

/-- The rooms reach the mailbox, the registry and the outboxes by themselves. -/
def roomsOp (options : MailboxOptions) : (op : RoomsOp) → RelayProgram op.Res
  | .loadPending roomId => onMailbox (PersistentMailbox.loadPending options roomId)
  | .room op => roomOp op
  | .entry roomId => perform (RelayOp.rooms (.entry roomId))
  | .vacantInsert roomId actor => perform (RelayOp.rooms (.vacantInsert roomId actor))
  | .get roomId => perform (RelayOp.rooms (.get roomId))
  | .removeIf roomId id => perform (RelayOp.rooms (.removeIf roomId id))
  | .fetchAdd id size => perform (RelayOp.rooms (.fetchAdd id size))
  | .fetchSub id size => perform (RelayOp.rooms (.fetchSub id size))
  | .trySend id event => perform (RelayOp.rooms (.trySend id event))
  | .isClosed id => perform (RelayOp.rooms (.isClosed id))
  | .recv id online => perform (RelayOp.rooms (.recv id online))
  | .dropReceiver id => perform (RelayOp.rooms (.dropReceiver id))

def onRooms {α : Type} (options : MailboxOptions) (p : RoomsProgram α) : RelayProgram α :=
  p.lift (roomsOp options)

def next (connectionId : ConnectionId) : RelayProgram (Option Message) :=
  perform (RelayOp.next connectionId)

def accept (connectionId : ConnectionId) (frame : Frame) : RelayProgram Unit :=
  perform (RelayOp.accept connectionId frame)

def checkJoin (ip : IpAddr) : RelayProgram Bool := perform (RelayOp.checkJoin ip)

def addBytes (ip : IpAddr) (bytes : ℕ) : RelayProgram Bool := perform (RelayOp.addBytes ip bytes)

def fillBytes : RelayProgram Key := perform RelayOp.fillBytes

def instantNow : RelayProgram ℕ := perform RelayOp.instantNow

def pairingLock : RelayProgram PairingState := perform RelayOp.pairingLock

def pairingUnlock (state : PairingState) : RelayProgram Unit :=
  perform (RelayOp.pairingUnlock state)

def lookupMembers (roomId fp : String) : RelayProgram (List String) :=
  perform (RelayOp.lookupMembers roomId fp)

end RelayProgram

/-! ## The reader -/

/-- What the relay is built with. -/
structure RelayConfig where
  prim : Primitives
  codec : Codec
  registryCodec : RegistryCodec
  mailboxCodec : MailboxCodec
  limits : Limits
  pairing : PairingConfig
  mailbox : MailboxOptions

inductive Connection.Phase where
  | preHello
  | ready (nonce : Option Key) (pubBundle : PubBundle)
  | joined

/-- The state of a connection's reader. -/
structure Connection where
  connectionId : ConnectionId
  clientIp : IpAddr
  outbox : OutboxHandle
  phase : Connection.Phase
  joined : Option (String × String)

namespace Connection

open RelayProgram

inductive Step where
  | goOn
  | joined (roomId fp : String)
  | close

variable (config : RelayConfig) (self : Connection)

def sendFrame (frame : Frame) : RelayProgram Bool :=
  onOutbox self.outbox (self.outbox.sendFrame config.codec frame)

def errorAndClose (code message : String) : RelayProgram Unit :=
  onOutbox self.outbox (self.outbox.errorAndClose config.codec code message)

/-- An error frame that was returned is sent before the close. -/
def refuse (frame : Frame) : RelayProgram Unit := do
  let _ ← self.sendFrame config frame
  onOutbox self.outbox OutboxHandle.close

/-- Authenticates and routes a join: single-use challenge, attempts of the address,
signature, device id, membership, and then the room's actor. -/
def handleJoin (challenge : Option Key) (roomId deviceIdFrame : String) (pubBundle : PubBundle)
    (sigB64 : String) : RelayProgram (Except Frame (String × String)) := do
  match challenge with
  | none => return .error (.error "bad_auth" "no active join challenge")
  | some nonce =>
  if (← checkJoin self.clientIp) = false then
    return .error (.error "rate_limited" "join attempts exceeded")
  match decodeSignature sigB64 with
  | none => return .error (.error "bad_auth" "sig_b64 must decode to 64 bytes")
  | some signature =>
  match joinSigMsg nonce.toList roomId deviceIdFrame (bundleBytes pubBundle) with
  | none => return .error (.error "bad_auth" "join signature input is invalid")
  | some message =>
  if config.prim.verifyStrict pubBundle.signPk message signature = false then
    return .error (.error "bad_auth" "join signature verification failed")
  if deviceId config.prim pubBundle.signPk ≠ deviceIdFrame then
    return .error (.error "bad_auth" "device_id does not match the signing key")
  let fp := bundleFp config.prim pubBundle
  let members ← lookupMembers roomId fp
  if members = [] then
    return .error (.error "bad_auth" "room is not registered")
  if fp ∉ members then
    return .error (.error "room_full" "room already has two identities")
  match ← onRooms config.mailbox
      (Rooms.join roomId members fp deviceIdFrame self.connectionId self.outbox) with
  | .error _ => return .error (.error "server_full" "room inbox exceeded")
  | .ok () => return .ok (roomId, fp)

/-- A pairing frame is handed to the relay of offers and claims, which holds its lock for
the whole call. -/
def onPairFrame (pubBundle : PubBundle) (frame : Frame) : RelayProgram PairingRelay.Answer := do
  let now ← instantNow
  let state ← pairingLock
  let (answer, state) ← onPairing
    (PairingRelay.onPairFrame config.prim config.codec config.pairing state
      ⟨self.connectionId, pubBundle, self.outbox, now⟩ self.clientIp frame)
  pairingUnlock state
  return answer

/-- The arms for pairing frames. -/
def stepPairing (pubBundle : PubBundle) (frame : Frame) : RelayProgram (Step × Connection) := do
  accept self.connectionId frame
  match ← self.onPairFrame config pubBundle frame with
  | .ok () => return (.goOn, self)
  | .error errorFrame =>
    self.refuse config errorFrame
    return (.close, self)

/-- The arms for frames that are out of order. -/
def stepIllegal (message : String) : RelayProgram (Step × Connection) := do
  self.errorAndClose config "bad_frame" message
  return (.close, self)

/-- One frame in the present phase. -/
def step (frame : Frame) (rawLen : ℕ) : RelayProgram (Step × Connection) :=
  match self.phase, frame with
  | .preHello, .hello helloDeviceId pubBundle version => do
    accept self.connectionId (.hello helloDeviceId pubBundle version)
    if deviceId config.prim pubBundle.signPk ≠ helloDeviceId then
      self.errorAndClose config "bad_auth" "hello device_id does not match signing key"
      return (.close, self)
    let nonce ← fillBytes
    let sent ← self.sendFrame config
      (.helloOk protocolVersion (Base64.encode nonce.toList))
    if sent = false then
      return (.close, self)
    return (.goOn, { self with phase := .ready (some nonce) pubBundle })
  | .preHello, _ => self.stepIllegal config "expected hello as the first frame"
  | .ready _ pubBundle, .pairOffer code bundle =>
    self.stepPairing config pubBundle (.pairOffer code bundle)
  | .ready _ pubBundle, .pairClaim code bundle =>
    self.stepPairing config pubBundle (.pairClaim code bundle)
  | .ready nonce helloBundle, .join roomId deviceId pubBundle sigB64 => do
    accept self.connectionId (.join roomId deviceId pubBundle sigB64)
    -- Any join attempt consumes the challenge.
    let self := { self with phase := .ready none helloBundle }
    match ← self.handleJoin config nonce roomId deviceId pubBundle sigB64 with
    | .ok (roomId, fp) => return (.joined roomId fp, self)
    | .error errorFrame =>
      self.refuse config errorFrame
      return (.close, self)
  | .ready .., _ => self.stepIllegal config "frame is illegal before join"
  | .joined, .clip roomId ciphertextB64 originDevice mailbox => do
    accept self.connectionId (.clip roomId ciphertextB64 originDevice mailbox)
    match self.joined with
    | none => onOutbox self.outbox panic
    | some (joinedRoom, fp) =>
    if roomId ≠ joinedRoom then
      self.errorAndClose config "bad_frame" "clip room does not match the joined room"
      return (.close, self)
    match ← onRooms config.mailbox
        (Rooms.clip joinedRoom fp self.connectionId ciphertextB64 rawLen) with
    | .error _ =>
      self.errorAndClose config "inbox_overflow" "room inbox exceeded"
      return (.close, self)
    | .ok () => return (.goOn, self)
  | .joined, _ => self.stepIllegal config "frame is illegal after join"

/-- The room that was joined is told that the connection ends. -/
def leaveRoom : RelayProgram Unit :=
  match self.joined with
  | some (roomId, fp) =>
    onRooms config.mailbox (Rooms.disconnect roomId fp self.connectionId)
  | none => pure ()

/-- The end of a connection: the room and the pairing relay are told, and the outbox is no
longer found. -/
def finish : RelayProgram Unit := do
  self.leaveRoom config
  let state ← pairingLock
  pairingUnlock (PairingRelay.onDisconnect state self.connectionId)
  perform (RelayOp.connectionsRemove self.connectionId)

/-- A text message: counted, decoded and taken up. -/
def onText (text : String) : RelayProgram (Step × Connection) := do
  let rawLen := (utf8Bytes text).length
  if (← addBytes self.clientIp rawLen) = false then
    self.errorAndClose config "rate_limited" "per-IP byte budget exceeded"
    return (.close, self)
  match decodeFrame config.codec (utf8Bytes text) with
  | .error error =>
    self.refuse config error.toErrorFrame
    return (.close, self)
  | .ok frame => self.step config frame rawLen

/-- One turn of the read loop; without a next state the connection has ended. -/
def readTurn : RelayProgram (Option Connection) := do
  match ← next self.connectionId with
  | none | some .close =>
    self.finish config
    return none
  | some .binary =>
    self.errorAndClose config "bad_frame" "binary frames are not accepted"
    self.finish config
    return none
  | some .ping | some .pong => return some self
  | some (.text text) =>
    match ← self.onText config text with
    | (.goOn, self) => return some self
    | (.joined roomId fp, self) =>
      return some { self with phase := .joined, joined := some (roomId, fp) }
    | (.close, self) =>
      self.finish config
      return none

/-- The connection as it begins, with its outbox entered into the table. -/
def start (connectionId : ConnectionId) (clientIp : IpAddr) :
    RelayProgram (Option Connection) := do
  let outbox : OutboxHandle := ⟨connectionId, config.limits.outboxMaxBytes⟩
  perform (RelayOp.connectionsInsert connectionId outbox)
  return some ⟨connectionId, clientIp, outbox, .preHello, none⟩

end Connection

end ClipSync
