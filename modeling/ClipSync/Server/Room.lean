import ClipSync.Core.Crypto
import ClipSync.Server.Mailbox
import ClipSync.Server.Outbox

/-!
# The room actor

The event handlers of `RoomActor` in `crates/server/src/room.rs`. An actor owns
the members that are online and the clips waiting for the others; it reaches the
rest of the relay through the outboxes of its members, the mailbox sink and the
registry. A handler is a program over these accesses that returns the actor's next
state.
-/

namespace ClipSync

open Lib Program

structure OnlineMember where
  connectionId : ConnectionId
  outbox : OutboxHandle
deriving DecidableEq

/-- Events serialized by a room actor. `encodedSize` is the size of the text a clip
arrived in. -/
inductive RoomEvent where
  | join (fp deviceId : String) (connectionId : ConnectionId) (outbox : OutboxHandle)
  | clip (senderFp : String) (connectionId : ConnectionId) (ciphertextB64 : String)
      (encodedSize : ℕ)
  | disconnect (fp : String) (connectionId : ConnectionId)
deriving DecidableEq

namespace RoomEvent

def payloadSize : RoomEvent → ℕ
  | .clip _ _ _ encodedSize => encodedSize
  | .join .. | .disconnect .. => 0

end RoomEvent

/-- The state of a room actor. Members and the mailbox are keyed by fingerprint. -/
structure RoomActor where
  roomId : String
  memberFps : List String
  online : HashMap String OnlineMember
  mailboxPending : HashMap String PendingClip

/-- What an actor can do to the rest of the relay. The registry reads the clock
itself. -/
inductive RoomOp where
  | outbox (outbox : OutboxHandle) (op : OutboxOp)
  | clipPending (roomId recipientFp : String) (clip : PendingClip)
  | clipConsumed (roomId recipientFp : String)
  | activateOnFirstJoin (roomId memberFp : String)

abbrev RoomOp.Res : RoomOp → Type
  | .outbox _ op => op.Res
  | .clipPending .. | .clipConsumed .. => Unit
  | .activateOnFirstJoin .. => Except String Bool

abbrev RoomProgram := Program RoomOp RoomOp.Res

/-- A function of an outbox, called through a handle. -/
def OutboxHandle.call {α : Type} (outbox : OutboxHandle) (p : OutboxProgram α) :
    RoomProgram α :=
  p.lift fun op => perform (RoomOp.outbox outbox op)

namespace RoomActor

/-- A new actor holds the clips that the mailbox has kept for its room. -/
def new (roomId : String) (memberFps : List String) (pending : List (String × PendingClip)) :
    RoomActor where
  roomId := roomId
  memberFps := memberFps
  online := ∅
  mailboxPending := .ofList pending

def clipPending (roomId recipientFp : String) (clip : PendingClip) : RoomProgram Unit :=
  perform (.clipPending roomId recipientFp clip : RoomOp)

def clipConsumed (roomId recipientFp : String) : RoomProgram Unit :=
  perform (.clipConsumed roomId recipientFp : RoomOp)

def activateOnFirstJoin (roomId memberFp : String) : RoomProgram (Except String Bool) :=
  perform (.activateOnFirstJoin roomId memberFp : RoomOp)

/-- The copy of a waiting clip that a joining member is sent. -/
def bootstrapFrame (roomId : String) (clip : PendingClip) : Frame :=
  .clip roomId clip.ciphertextB64 clip.originDevice true

/-- The copy of a clip for a member that is online: the origin is the authenticated
sender, whatever the sender wrote. -/
def liveFrame (roomId senderFp ciphertextB64 : String) : Frame :=
  .clip roomId ciphertextB64 senderFp false

/-- The room without a member and its waiting clip. -/
def without (self : RoomActor) (fp : String) : RoomActor :=
  { self with online := self.online.erase fp, mailboxPending := self.mailboxPending.erase fp }

def replaceOld (self : RoomActor) (fp : String) : RoomProgram Unit :=
  match self.online.lookup fp with
  | some old => old.outbox.call OutboxHandle.close
  | none => pure ()

def takeWaiting (self : RoomActor) (fp : String) : RoomProgram Frame :=
  match self.mailboxPending.lookup fp with
  | some clip => do
    clipConsumed self.roomId fp
    pure (bootstrapFrame self.roomId clip)
  | none => pure Frame.mailboxEmpty

variable (codec : Codec)

/-- Durably activate the room, then publish the two reserved frames before registering
the member into the routing set. -/
def activate (self : RoomActor) (fp : String) (connectionId : ConnectionId)
    (outbox : OutboxHandle) (joinOk bootstrap : ReservedFrame) : RoomProgram RoomActor := do
  match ← activateOnFirstJoin self.roomId fp with
  | .error _ =>
    outbox.call joinOk.drop
    outbox.call bootstrap.drop
    outbox.call (outbox.errorAndClose codec "registry_failed"
      "room activation could not be persisted")
    return self
  | .ok _ =>
    outbox.call joinOk.send
    outbox.call bootstrap.send
    return { self with online := self.online.insert fp ⟨connectionId, outbox⟩ }

/-- Reserve both success frames before the room is activated. -/
def admitJoin (self : RoomActor) (fp : String) (connectionId : ConnectionId)
    (outbox : OutboxHandle) (bootstrap : Frame) : RoomProgram RoomActor := do
  let some joinOk ← outbox.call (outbox.tryReserveFrame codec .joinOk) | return self
  let some bootstrap ← outbox.call (outbox.tryReserveFrame codec bootstrap)
    | outbox.call joinOk.drop
      return self
  self.activate codec fp connectionId outbox joinOk bootstrap

/-- The older connection of the member is closed, and its waiting clip is sent on. -/
def onJoin (self : RoomActor) (fp : String) (connectionId : ConnectionId)
    (outbox : OutboxHandle) : RoomProgram RoomActor := do
  self.replaceOld fp
  let bootstrap ← self.takeWaiting fp
  (self.without fp).admitJoin codec fp connectionId outbox bootstrap

/-- The turn of one member of the room in the routing of a clip. -/
def routeTo (senderFp ciphertextB64 : String) (self : RoomActor) (recipientFp : String) :
    RoomProgram RoomActor := do
  if recipientFp = senderFp then
    return self
  match self.online.lookup recipientFp with
  | some member =>
    let sent ← member.outbox.call
      (member.outbox.sendFrame codec (liveFrame self.roomId senderFp ciphertextB64))
    if sent then
      return self
    -- Slow consumer past the bounded outbox: disconnect it.
    let _ ← member.outbox.call
      (member.outbox.sendFrame codec (.error "outbox_overflow" "outbound queue exceeded"))
    member.outbox.call OutboxHandle.close
    return { self with online := self.online.erase recipientFp }
  | none =>
    let pending : PendingClip := ⟨senderFp, ciphertextB64⟩
    clipPending self.roomId recipientFp pending
    return { self with mailboxPending := self.mailboxPending.insert recipientFp pending }

/-- Only the current connection of a fingerprint may emit clips. -/
def onClip (self : RoomActor) (senderFp : String) (connectionId : ConnectionId)
    (ciphertextB64 : String) : RoomProgram RoomActor :=
  match self.online.lookup senderFp with
  | none => pure self
  | some sender =>
    if sender.connectionId ≠ connectionId then pure self
    else self.memberFps.foldlM (routeTo codec senderFp ciphertextB64) self

def onDisconnect (self : RoomActor) (fp : String) (connectionId : ConnectionId) : RoomActor :=
  if (self.online.lookup fp).any fun member => member.connectionId == connectionId then
    { self with online := self.online.erase fp }
  else self

@[simp] theorem onDisconnect_roomId (self : RoomActor) (fp : String)
    (connectionId : ConnectionId) : (self.onDisconnect fp connectionId).roomId = self.roomId := by
  unfold onDisconnect
  split <;> rfl

/-- The handler of an event. -/
def handle (self : RoomActor) : RoomEvent → RoomProgram RoomActor
  | .join fp _ connectionId outbox => self.onJoin codec fp connectionId outbox
  | .clip senderFp connectionId ciphertextB64 _ =>
    self.onClip codec senderFp connectionId ciphertextB64
  | .disconnect fp connectionId => pure (self.onDisconnect fp connectionId)

/-- A sequence of events, handled in turn. -/
def handleAll (self : RoomActor) (events : List RoomEvent) : RoomProgram RoomActor :=
  events.foldlM (handle codec) self

end RoomActor

end ClipSync
